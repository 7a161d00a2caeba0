import RabiRoute.PlanStorage.LeaseRelease

/-!
# What the plan storage lease excludes

The calls and their heartbeats keep the discipline in every run whose reclaims are safe.  So the lock
of a live call stays in place from its acquisition to its release, and in a run that also leaves the
releases undisturbed a settled call leaves no lock behind.
-/

open Interleave Interleave.Program

namespace RabiRoute.Lease

variable {calls : Calls} {strict : Prop}

/-! ## The transaction between acquisition and release -/

/-- The commands of a transaction and of a heartbeat that change only the words they share. -/
def Aux : Cmd → Prop
  | .startWorker | .requestStop | .publish _ | .storeFailure _ | .addCount | .setActive _ => True
  | c => Quiet c

/-- The files, the names and the marks of the calls are the same. -/
structure SameFiles (s s' : LeaseState) : Prop where
  frame : Frame s s'
  file : s'.file = s.file
  holding : s'.holding = s.holding
  releasing : s'.releasing = s.releasing
  seen : s'.seen = s.seen

theorem SameFiles.refl (s : LeaseState) : SameFiles s s :=
  ⟨⟨fun _ h => h, rfl, rfl, rfl, rfl, rfl, rfl, fun _ => rfl, fun _ => rfl⟩, rfl, rfl, rfl, rfl⟩

theorem execLive_aux {t : CallId} {s s' : LeaseState} {c : Cmd} {ch : Choice} {r : c.Response}
    (hc : Aux c) (h : execLive calls t s c ch = some (r, s')) : SameFiles s s' := by
  by_cases hquiet : Quiet c
  · rw [execLive_quiet hquiet h]
    exact .refl s
  · cases c <;> first
      | exact absurd hc hquiet
      | (simp only [execLive, Option.some.injEq, Prod.mk.injEq] at h
         obtain ⟨-, rfl⟩ := h
         exact ⟨⟨fun _ h => h, rfl, rfl, rfl, rfl, rfl, rfl, fun _ => rfl, fun _ => rfl⟩, rfl, rfl, rfl, rfl⟩)

theorem SameFiles.guarantee {thread : Thread} {s s' : LeaseState} (h : SameFiles s s')
    (hinv : Inv calls s) : (discipline calls strict).Guarantee thread s s' :=
  guarantee_frame hinv h.frame h.file (fun u _ => by rw [h.releasing])
    (fun u _ => by rw [h.seen]) (fun u _ => by rw [h.holding]) fun u hu => .inl (h.holding ▸ hu)

theorem SameFiles.steady {t : CallId} {s s' : LeaseState} (h : SameFiles s s')
    (hinv : Inv calls s) : Steady calls strict t s s' := by
  have hg : (discipline calls strict).Guarantee (.call t) s s' := h.guarantee hinv
  exact .step hg (.self hg.inv) (by rw [h.frame.names]) (by rw [h.holding]) (by rw [h.releasing])
    (fun n => by rw [h.frame.used]) (fun i _ _ _ => by rw [h.file]) hinv

theorem exec_some {thread : Thread} {c : Cmd} {ch : Choice} {s s' : LeaseState} {r : c.Response}
    (h : (machine calls).exec thread c ch s = some (r, s')) :
    calls.alive s thread.id = true ∧ execLive calls thread.id s c ch = some (r, s') := by
  have halive : calls.alive s thread.id = true := by
    by_contra hdead
    simp [machine, exec, hdead] at h
  exact ⟨halive, by simpa [machine, exec, halive] using h⟩

/-- A program of such commands leaves the call where it was. -/
theorem wp_aux {t : CallId} {s : LeaseState} {ε α : Type} {p : Program Cmd Cmd.Response ε α}
    (hp : p.Uses Aux) (hinv : Inv calls s) :
    triple calls strict (.call t) p (fun _ => Steady calls strict t s)
      (fun _ => Steady calls strict t s) s := by
  refine wp_uses hp ?_ (fun _ _ h h' => h.later h') hinv (.self hinv)
  intro c hc s₁ ch r s' hinv₁ hs _ hexec
  have hsame := execLive_aux hc (exec_some hexec).2
  exact ⟨hsame.guarantee hinv₁, hs.trans (hsame.steady hinv₁)⟩

section Uses

variable {P : Cmd → Prop} {t : CallId}

theorem uses_sys {c : Cmd} (hc : P c) : (sys c).Uses P :=
  Uses.performOrThrow hc

theorem uses_during {L α : Type} {locals : L} {p : Prog α} (hp : p.Uses P) : (during locals p).Uses P :=
  hp.handle (fun _ => trivial) fun _ => trivial

theorem uses_readStableSnapshot (name : Name) (hname : name ≠ .fence) : (readStableSnapshot name).Uses Aux := by
  refine .attempt (.bind (uses_sys hname) fun before => .bind (uses_sys trivial) fun raw =>
    .bind (uses_sys hname) fun after => trivial) fun error => ?_
  split <;> trivial

theorem uses_readStableOwnedSnapshot (token : OwnerToken) (left : Nat) :
    (readStableOwnedSnapshot .lock token left).Uses Aux := by
  induction left with
  | zero => trivial
  | succ left ih =>
    refine .bind (uses_readStableSnapshot .lock (by simp)) fun snapshot => ?_
    split
    · trivial
    · split
      · refine .bind (uses_sys trivial) fun found => ?_
        split
        · exact .bind (uses_sys trivial) fun _ => ih
        · trivial
      · trivial

theorem uses_assertHealthy (phase : Phase) : (assertHealthy phase).Uses Aux := by
  refine .bind (uses_sys trivial) fun status => ?_
  split
  · exact .bind (uses_sys trivial) fun _ => trivial
  · trivial

theorem uses_checkFence : checkFence.Uses Aux := by
  refine .bind (uses_sys trivial) fun fenced => ?_
  split <;> trivial

theorem uses_assertPlanStorageLeaseOwner : (assertPlanStorageLeaseOwner calls t).Uses Aux := by
  have hlast : (do
      assertHealthy .repositoryCheckpoint
      checkFence).Uses Aux :=
    .bind (uses_assertHealthy _) fun _ => uses_checkFence
  refine .bind (uses_assertHealthy _) fun _ => .bind uses_checkFence fun _ =>
    .bind (uses_readStableOwnedSnapshot _ _) fun snapshot => ?_
  split
  · trivial
  · split
    · trivial
    · split
      · trivial
      · split
        · split
          · refine .bind (uses_sys trivial) fun now => ?_
            split
            · trivial
            · exact hlast
          · exact hlast
        · exact hlast

theorem uses_startSyncLeaseHeartbeat : startSyncLeaseHeartbeat.Uses Aux := by
  refine .bind (uses_sys trivial) fun _ => .bind (uses_sys trivial) fun status => ?_
  split
  · exact .bind (uses_sys trivial) fun _ => .bind (uses_sys trivial) fun _ => trivial
  · trivial

theorem uses_stopHeartbeat : stopHeartbeat.Uses Aux := by
  refine .bind (uses_sys trivial) fun _ => .bind (uses_sys trivial) fun status => ?_
  split
  · exact .bind (uses_sys trivial) fun _ => trivial
  · trivial

theorem uses_runAction (checkpoints : Nat) : (runAction calls t checkpoints).Uses Aux := by
  induction checkpoints with
  | zero => exact uses_sys trivial
  | succ checkpoints ih => exact .bind uses_assertPlanStorageLeaseOwner fun _ => ih

theorem uses_transaction : (transaction calls t).Uses Aux := by
  refine .bind (uses_during uses_startSyncLeaseHeartbeat) fun _ => .bind (uses_during ?_) fun _ =>
    .bind (uses_during uses_assertPlanStorageLeaseOwner) fun _ =>
    .bind (uses_during (uses_runAction _)) fun _ =>
    .bind (uses_during (uses_assertHealthy _)) fun _ => uses_during uses_assertPlanStorageLeaseOwner
  split
  · exact uses_sys trivial
  · trivial

end Uses

/-- Call `t` has nothing more to do with the lock; in a strict run it has left no lock behind. -/
structure Settled (calls : Calls) (strict : Prop) (t : CallId) (s : LeaseState) : Prop where
  inv : Inv calls s
  notCarried : strict → calls.alive s t = true → NotCarried t s

theorem Idle.settled {t : CallId} {s : LeaseState} (h : Idle calls strict t s) : Settled calls strict t s :=
  ⟨h.inv, h.notCarried⟩

theorem Settled.steady {t : CallId} {s s' : LeaseState} (h : Settled calls strict t s)
    (hs : Steady calls strict t s s') : Settled calls strict t s' :=
  ⟨hs.inv, fun hst ha => hs.kept.notCarried ha (h.notCarried hst (hs.kept.base.alive ha))⟩

section Transaction

variable {t : CallId} {s : LeaseState}

theorem wp_collect {p : Prog Unit} {Q : Option LeaseError → LeaseState → Prop} {E : LeaseError → LeaseState → Prop} (h :
    triple calls strict (.call t) p (fun _ => Q none) (fun e => Q (some e)) s) : triple calls strict (.call t) (collect
    p) Q E s :=
  wp_attempt (wp_bind (wp_mono h (fun _ _ hq => hq) fun _ _ hq => hq))

/-- `releaseOwnedLease` and what is thrown after it. -/
theorem wp_releaseAndThrow (stopError : Option LeaseError) (howner : Owner calls t s) :
    triple calls strict (.call t) (do
        let releaseError ← collect (releaseOwnedLease calls t)
        throwFinalization stopError releaseError)
      (fun _ => Settled calls strict t) (fun _ => Settled calls strict t) s := by
  refine wp_bind (wp_collect (wp_mono (wp_releaseOwnedLease howner.inv fun _ => howner)
    (fun _ s₁ h => ?_) fun error s₁ h => ?_))
  · have hsettled : Settled calls strict t s₁ := ⟨h.1, h.2⟩
    cases stopError <;> exact hsettled
  · have hsettled : Settled calls strict t s₁ := ⟨h.1, fun hst => absurd hst h.2⟩
    cases stopError <;> exact hsettled

theorem wp_finalize (heartbeat : Bool) (howner : Owner calls t s) :
    triple calls strict (.call t) (finalize calls t heartbeat)
      (fun _ => Settled calls strict t) (fun _ => Settled calls strict t) s := by
  have hstop : triple calls strict (.call t)
      (if heartbeat then collect stopHeartbeat else pure none)
      (fun _ => Owner calls t) (fun _ => Settled calls strict t) s := by
    split
    · exact wp_collect (wp_mono (wp_aux uses_stopHeartbeat howner.inv)
        (fun _ _ hs => howner.steady hs) fun _ _ hs => howner.steady hs)
    · exact howner
  refine wp_bind (wp_mono hstop (fun stopError s₁ howner₁ => ?_) fun _ _ h => h)
  split
  · refine wp_bind (wp_callStep fun ch r s' _ _ hexec => ?_)
    have hsame : SameFiles s₁ s' := execLive_aux (c := .setActive false) trivial hexec
    obtain rfl : r = .ok () := by
      cases ch <;> simp only [execLive, Option.some.injEq, Prod.mk.injEq] at hexec <;>
        exact hexec.1.symm
    refine ⟨hsame.guarantee howner₁.inv, fun s₂ hl => ⟨fun _ _ => ?_, fun _ hv => by cases hv⟩⟩
    have hs : Steady calls strict t s₁ s' := hsame.steady howner₁.inv
    exact wp_releaseAndThrow stopError ((howner₁.steady hs).later hl)
  · exact wp_releaseAndThrow stopError howner₁

theorem wp_runTransaction (howner : Owner calls t s) :
    triple calls strict (.call t) (runTransaction calls t)
      (fun _ => Settled calls strict t) (fun _ => Settled calls strict t) s := by
  refine wp_handle (wp_mono (wp_aux uses_transaction howner.inv) (fun _ s₁ hs => ?_)
    fun (heartbeat, error) s₁ hs => ?_)
  · exact wp_finalize true (howner.steady hs)
  · exact wp_bind (wp_finalize heartbeat (howner.steady hs))

end Transaction

/-! ## The acquisition -/

section Acquisition

variable {t : CallId} {s : LeaseState} {candidate : Nat}

theorem wp_fencePresent {mode : Mode} (hinv : Inv calls s) :
    triple calls strict (.call t) (fencePresent mode) (fun _ => Steady calls strict t s)
      (fun _ => Steady calls strict t s) s := by
  cases mode with
  | sync => exact wp_aux (uses_sys trivial) hinv
  | async =>
    refine wp_attempt (wp_bind (wp_callStep fun ch r s' _ _ hexec => ?_))
    obtain ⟨hg, hsteady⟩ : (discipline calls strict).Guarantee (.call t) s s' ∧
        ∀ s'', Later calls strict t s' s'' → Steady calls strict t s s'' :=
      guarantee_stat hinv hexec
    refine ⟨hg, fun s₁ hl => ⟨fun _ _ => hsteady s₁ hl, fun error _ => ?_⟩⟩
    split
    · exact hsteady s₁ hl
    · exact hsteady s₁ hl

/-- One turn's attempt to get the lock. -/
theorem wp_tryLock (hidle : Idle calls strict t s) (hcandidate : CandidateFile calls t candidate s) :
    triple calls strict (.call t)
      ((do
        sys (.link (.candidate candidate) .lock)
        pure true).attempt fun error =>
          if error ≠ LeaseError.eexist then raise error
          else do
            let replaced ← replaceRecoverableLock calls t candidate
            if replaced then pure true
            else do
              sys .wait
              pure false)
      (fun acquired s' => if acquired then Owner calls t s' ∧ s'.holding t = false
        else Idle calls strict t s' ∧ CandidateFile calls t candidate s')
      (fun _ => Idle calls strict t) s := by
  refine wp_attempt (wp_bind (wp_linkCandidate hcandidate (fun target s₁ hinv hmine hl => ?_)
    fun error s₁ hl => ?_))
  · have howner : Owner calls t (s.setName .lock target) := ⟨hinv, fun _ => hmine⟩
    exact ⟨howner.later hl, (hl.rely.own t rfl).holding.trans hidle.holding⟩
  · have hidle₁ := hidle.later hl
    split
    · exact hidle₁
    · refine wp_bind (wp_mono (wp_replaceRecoverableLock hidle₁ (hcandidate.steady (.of_later hl)))
        (fun replaced s₂ h => ?_) fun _ _ h => h)
      cases replaced with
      | true => exact h
      | false =>
        refine wp_bind (wp_quietStep (c := .wait) trivial h.1.inv fun ch r s₃ _ _ _ hl₃ =>
          ⟨fun _ _ => ?_, fun _ _ => h.1.later hl₃⟩)
        exact ⟨h.1.later hl₃, h.2.steady (.of_later hl₃)⟩

theorem wp_acquireLoop {deadline : Nat} (turns : Nat) (hidle : Idle calls strict t s)
    (hcandidate : CandidateFile calls t candidate s) :
    triple calls strict (.call t) (acquireLoop calls t candidate deadline turns)
      (fun _ s' => Owner calls t s' ∧ s'.holding t = false) (fun _ => Idle calls strict t) s := by
  induction turns generalizing s with
  | zero => exact hidle
  | succ turns ih =>
    refine wp_bind (wp_quietStep (c := .dateNow) trivial hidle.inv fun ch r s₁ _ _ _ hl₁ =>
      ⟨fun now _ => ?_, fun _ _ => hidle.later hl₁⟩)
    have hidle₁ := hidle.later hl₁
    have hcandidate₁ := hcandidate.steady (.of_later hl₁)
    split
    · exact hidle₁
    · refine wp_bind (wp_mono (wp_fencePresent hidle₁.inv) (fun fenced s₂ hs₂ => ?_)
        fun _ s₂ hs₂ => hidle₁.steady hs₂)
      have hidle₂ := hidle₁.steady hs₂
      have hcandidate₂ := hcandidate₁.steady hs₂
      split
      · refine wp_bind (wp_mono (wp_reclaimUnpublishedFile hidle₂.inv (by simp))
          (fun _ s₃ hs₃ => ?_) fun _ s₃ hs₃ => hidle₂.steady hs₃)
        have hidle₃ := hidle₂.steady hs₃
        refine wp_bind (wp_quietStep (c := .wait) trivial hidle₃.inv fun ch r s₄ _ _ _ hl₄ =>
          ⟨fun _ _ => ?_, fun _ _ => hidle₃.later hl₄⟩)
        exact ih (hidle₃.later hl₄) ((hcandidate₂.steady hs₃).steady (.of_later hl₄))
      · refine wp_bind (wp_mono (wp_tryLock hidle₂ hcandidate₂) (fun acquired s₃ h => ?_)
          fun _ _ h => h)
        cases acquired with
        | true => exact h
        | false => exact ih h.1 h.2

/-- The unlink of the call's candidate, and the release that follows when it fails. -/
theorem wp_dropCandidate (acquired : Bool) {Q : LeaseState → Prop} (hinv : Inv calls s)
    (howner : acquired = true → Owner calls t s)
    (hsettled : acquired = false → Settled calls strict t s)
    (hQ : ∀ s', Steady calls strict t s s' → Q s') :
    triple calls strict (.call t) (dropCandidate calls t candidate acquired) (fun _ => Q)
      (fun _ => Settled calls strict t) s := by
  have hcondemned : Condemned calls t (.candidate candidate) s := by
    exact ⟨(fun h => by cases h), fun n i h => by cases h⟩
  refine wp_attempt (wp_unlinkCondemned hinv (by simp) hcondemned hQ fun error s₁ hs hst => ?_)
  split
  case isTrue => exact hQ s₁ hs
  case isFalse hne =>
    have hnot : ¬ strict := fun h => hne (hst h)
    cases acquired with
    | false => exact (hsettled rfl).steady hs
    | true =>
      exact wp_bind (wp_mono (wp_releaseOwnedLease hs.inv fun h => absurd h hnot)
        (fun _ _ h => ⟨h.1, h.2⟩) fun _ _ h => ⟨h.1, fun hst => absurd hst h.2⟩)

/-- The mark that the call is past its acquisition. -/
theorem wp_enter {Q : Unit → LeaseState → Prop} {E : LeaseError → LeaseState → Prop} (howner : Owner calls t s) (hQ : ∀
    s', Owner calls t s' → Q () s') : triple calls strict (.call t) (sys .enter) Q E s := by
  refine wp_callStep fun ch r s' _ ha hexec => ?_
  obtain ⟨rfl, rfl⟩ : r = .ok () ∧ s' = s.setHolding t true := by
    cases ch <;> simp only [execLive, Option.some.injEq, Prod.mk.injEq] at hexec <;>
      exact ⟨hexec.1.symm, hexec.2.symm⟩
  have hg : (discipline calls strict).Guarantee (.call t) s (s.setHolding t true) := by
    refine guarantee_frame howner.inv
      ⟨fun _ h => h, rfl, rfl, rfl, rfl, rfl, rfl, fun _ => rfl, fun _ => rfl⟩ rfl (fun _ _ => rfl)
      (fun _ _ => rfl) (fun u hu => ?_) fun u hu => ?_
    · have : u ≠ t := fun h => hu (by rw [h])
      simp [LeaseState.setHolding, this]
    · by_cases hut : u = t
      · exact .inr (hut ▸ howner.mine ha)
      · exact .inl (by simpa [LeaseState.setHolding, hut] using hu)
  have howner' : Owner calls t (s.setHolding t true) := ⟨hg.inv, fun ha => howner.mine ha⟩
  exact ⟨hg, fun s'' hl => ⟨fun _ _ => hQ s'' (howner'.later hl), fun _ hv => by cases hv⟩⟩

theorem Created.candidateFile {i : Nat} {r : LeaseRecord} (h : Created calls t (.candidate candidate) i s) (hr : (s.file
    i).content = .record r) (howner : r.owner = some (.lease (calls.owner t))) : CandidateFile calls t candidate s :=
  ⟨h.inv, h.used, i, h.lt, h.creator, ⟨r, hr, by rw [h.creator]; exact howner⟩,
    fun j hj => h.candidate candidate j rfl hj⟩

theorem wp_acquirePlanStorageLease (hidle : Idle calls strict t s) :
    triple calls strict (.call t) (acquirePlanStorageLease calls t)
      (fun _ => Owner calls t) (fun _ => Settled calls strict t) s := by
  refine wp_bind (wp_mono (wp_reclaimOrphanCandidates hidle.inv) (fun _ s₁ hs₁ => ?_)
    fun _ s₁ hs₁ => (hidle.steady hs₁).settled)
  refine wp_bind (wp_randomUUID hs₁.inv fun candidate s₂ hdrawn hlt hunused hs₂ _ => ?_)
  have hidle₂ := (hidle.steady hs₁).steady hs₂
  refine wp_bind (wp_recordFor hs₂.inv rfl fun record s₃ hrecord howner hl₃ => ?_)
  have hidle₃ := hidle₂.later hl₃
  have hname : Name.candidate candidate = .fence ∨ ∃ n, Name.candidate candidate = .candidate n ∧
      s₃.drawnBy n = t ∧ n < s₃.nextUuid ∧ s₃.used (.candidate candidate) = false :=
    .inr ⟨candidate, rfl, (hl₃.rely.base.drawn _ hlt).trans hdrawn, hlt.trans_le hl₃.rely.base.uuid_le,
      ((hl₃.rely.own t rfl).unused _ candidate rfl hlt hdrawn).trans (hunused _ rfl)⟩
  refine wp_bind (wp_writeRecord hl₃.inv hrecord hname (fun i s₄ hs₄ hcreated hcontent => ?_)
    fun error s₄ hs₄ _ => (hidle₃.steady hs₄).settled)
  have hcandidate := hcreated.candidateFile hcontent howner
  have hidle₄ := hidle₃.steady hs₄
  refine wp_bind (wp_quietStep (c := .dateNow) trivial hidle₄.inv fun ch r s₅ _ _ _ hl₅ =>
    ⟨fun start _ => ?_, fun _ _ => (hidle₄.later hl₅).settled⟩)
  refine wp_handle (wp_bind (wp_mono (wp_acquireLoop _ (hidle₄.later hl₅)
    (hcandidate.steady (.of_later hl₅))) (fun _ s₆ h => ?_) fun error s₆ hidle₆ => ?_))
  · refine wp_enter h.1 fun s₇ howner₇ => ?_
    exact wp_dropCandidate true howner₇.inv (fun _ => howner₇) (fun h => by cases h)
      fun s₈ hs₈ => howner₇.steady hs₈
  · exact wp_bind (wp_dropCandidate false hidle₆.inv (fun h => by cases h)
      (fun _ => hidle₆.settled) fun s₇ hs₇ => hidle₆.settled.steady hs₇)

end Acquisition

/-! ## One call and its heartbeat -/

section Threads

variable {t : CallId} {s : LeaseState}

/-- The mark that the call has settled. -/
theorem wp_leave {Q : Unit → LeaseState → Prop} {E : LeaseError → LeaseState → Prop} (hsettled : Settled calls strict t
    s) (hQ : ∀ s', Settled calls strict t s' → Q () s') : triple calls strict (.call t) (sys .leave) Q E s := by
  refine wp_callStep fun ch r s' _ _ hexec => ?_
  obtain ⟨rfl, rfl⟩ : r = .ok () ∧ s' = s.setHolding t false := by
    cases ch <;> simp only [execLive, Option.some.injEq, Prod.mk.injEq] at hexec <;>
      exact ⟨hexec.1.symm, hexec.2.symm⟩
  have hg : (discipline calls strict).Guarantee (.call t) s (s.setHolding t false) := by
    refine guarantee_frame hsettled.inv
      ⟨fun _ h => h, rfl, rfl, rfl, rfl, rfl, rfl, fun _ => rfl, fun _ => rfl⟩ rfl (fun _ _ => rfl)
      (fun _ _ => rfl) (fun u hu => ?_) fun u hu => ?_
    · have : u ≠ t := fun h => hu (by rw [h])
      simp [LeaseState.setHolding, this]
    · by_cases hut : u = t
      · simp [LeaseState.setHolding, hut] at hu
      · exact .inl (by simpa [LeaseState.setHolding, hut] using hu)
  refine ⟨hg, fun s'' hl => ⟨fun _ _ => hQ s'' ⟨hl.inv, fun hst ha => ?_⟩, fun _ hv => by cases hv⟩⟩
  exact (hl.rely.own t rfl).notCarried ha (hsettled.notCarried hst (hl.rely.base.alive ha))

theorem wp_withPlanStorageLease (hidle : Idle calls strict t s) :
    triple calls strict (.call t) (withPlanStorageLease calls t)
      (fun _ => Settled calls strict t) (fun _ => Settled calls strict t) s := by
  have hbody : ∀ s₁, Idle calls strict t s₁ → triple calls strict (.call t) (do
        acquirePlanStorageLease calls t
        runTransaction calls t)
      (fun _ => Settled calls strict t) (fun _ => Settled calls strict t) s₁ := fun s₁ hidle₁ =>
    wp_bind (wp_mono (wp_acquirePlanStorageLease hidle₁)
      (fun _ s₂ howner => wp_runTransaction howner) fun _ _ h => h)
  have hmain : triple calls strict (.call t) (do
        if calls.mode t = Mode.sync then
          let reentrant ← sys .isActive
          if reentrant then raise .reentrant else pure ()
        else pure ()
        acquirePlanStorageLease calls t
        runTransaction calls t)
      (fun _ => Settled calls strict t) (fun _ => Settled calls strict t) s := by
    split
    · refine wp_bind (wp_quietStep (c := .isActive) trivial hidle.inv fun ch r s₁ _ _ _ hl =>
        ⟨fun reentrant _ => ?_, fun _ _ => (hidle.later hl).settled⟩)
      split
      · exact (hidle.later hl).settled
      · exact hbody s₁ (hidle.later hl)
    · exact hbody s hidle
  exact wp_ensure (wp_mono hmain (fun _ s₁ h => wp_leave h fun _ h' => h')
    fun _ s₁ h => wp_leave h fun _ h' => h')

/-- The worker has opened the lease file of its own call. -/
structure OwnDescriptor (t : CallId) (fd : Nat) (s : LeaseState) : Prop where
  lt : fd < s.nextInode
  creator : (s.file fd).creator = t

/-- The commands of a worker that has opened the file `fd`. -/
def Renewing (fd : Nat) (c : Cmd) : Prop :=
  Aux c ∨ ∃ mtimeMs, c = .futimes fd mtimeMs

theorem wp_renewing {fd : Nat} {ε α : Type} {p : Program Cmd Cmd.Response ε α}
    (hp : p.Uses (Renewing fd)) (hinv : Inv calls s) (hown : OwnDescriptor t fd s) :
    triple calls strict (.heartbeat t) p (fun _ s' => Inv calls s') (fun _ s' => Inv calls s') s := by
  refine wp_mono (Q := fun _ s' => Inv calls s' ∧ OwnDescriptor t fd s')
    (E := fun _ s' => Inv calls s' ∧ OwnDescriptor t fd s')
    (wp_uses (F := fun s' => Inv calls s' ∧ OwnDescriptor t fd s') hp ?_ ?_ hinv ⟨hinv, hown⟩)
    (fun _ _ h => h.1) fun _ _ h => h.1
  · intro c hc s₁ ch r s' _ h hok hexec
    obtain ⟨hinv₁, hown₁⟩ := h
    have hlive := (exec_some hexec).2
    have hg : (discipline calls strict).Guarantee (.heartbeat t) s₁ s' := by
      rcases hc with haux | ⟨mtimeMs, rfl⟩
      · exact (execLive_aux haux hlive).guarantee hinv₁
      · have hs' : s' = s₁ ∨ s' = s₁.setFile fd { s₁.file fd with mtimeMs } := by
          cases ch <;> simp only [execLive, Option.some.injEq, Prod.mk.injEq] at hlive <;>
            simp [← hlive.2]
        rcases hs' with rfl | rfl
        · exact guarantee_self hinv₁
        · refine guarantee_futimes hinv₁ fun hst u hu _ => ?_
          have hfree : s₁.releasing t = false := hok.2 hst
          rwa [← hu, hown₁.creator]
    have hbase : Base s₁ s' := (hg.others (.call t) (by simp)).base
    exact ⟨hg, hg.inv, hown₁.lt.trans_le hbase.next_le, (hbase.creator fd hown₁.lt).trans hown₁.creator⟩
  · intro s₁ s₂ h hl
    exact ⟨hl.inv, h.2.lt.trans_le hl.rely.base.next_le, (hl.rely.base.creator fd h.2.lt).trans h.2.creator⟩

theorem uses_renewOwnRecord {fd : Nat} (after : Stat) (record : LeaseRecord) :
    (renewOwnRecord calls t fd after record).Uses (Renewing fd) := by
  have haux : ∀ {c : Cmd}, Aux c → (during (some fd) (sys c)).Uses (Renewing fd) := fun h =>
    uses_during (uses_sys (.inl h))
  refine .bind (haux trivial) fun fenced => ?_
  split
  · trivial
  · split
    · trivial
    · split
      · trivial
      · refine .bind (haux trivial) fun now => ?_
        split
        · trivial
        · refine .bind (haux trivial) fun now' =>
            .bind (uses_during (uses_sys (.inr ⟨_, rfl⟩))) fun _ =>
            .bind (haux trivial) fun renewed => ?_
          split
          · trivial
          · refine .bind (haux trivial) fun now'' => ?_
            split
            · trivial
            · refine .bind (haux (c := .stat .lock) (by simp [Aux, Quiet])) fun current => ?_
              split
              · trivial
              · refine .bind (haux trivial) fun currentRaw => ?_
                split
                · trivial
                · exact .bind (haux trivial) fun _ => trivial

/-- A step of the worker that changes no file. -/
theorem wp_workerStep {L : Type} {locals : L} {c : Cmd} {Q : c.Val → LeaseState → Prop}
    {E : L × LeaseError → LeaseState → Prop} (hc : Quiet c) (hinv : Inv calls s)
    (hQ : ∀ ch v s', execLive calls t s c ch = some (.ok v, s) →
      (discipline calls strict).Later (.heartbeat t) s s' → Q v s')
    (hE : ∀ e s', Inv calls s' → E e s') :
    triple calls strict (.heartbeat t) (during locals (sys c)) Q E s :=
  wp_handle (wp_quietStep hc hinv fun ch _ s' _ _ hexec hl =>
    ⟨fun v hr => hQ ch v s' (hr ▸ hexec) hl, fun _ _ => hE _ s' hl.inv⟩)

theorem wp_renewSteps (hinv : Inv calls s) :
    triple calls strict (.heartbeat t) (renewSteps calls t) (fun _ s' => Inv calls s')
      (fun _ s' => Inv calls s') s := by
  refine wp_bind (wp_workerStep (c := .openLock) trivial hinv (fun ch fd s₁ hexec hl₁ => ?_)
    fun _ _ h => h)
  have hlock : s.names .lock = some fd := by
    cases ch <;> cases hname : s.names .lock <;> simp_all [execLive]
  -- the descriptor's file is the lease file of some call, and its record tells which
  obtain ⟨r, hr, howner⟩ := hinv.lock_lease fd hlock
  have hlt := hinv.names_lt _ _ hlock
  refine wp_bind (wp_workerStep (c := .fstat fd) trivial hl₁.inv (fun _ before s₂ _ hl₂ => ?_)
    fun _ _ h => h)
  have hl := hl₁.trans hl₂
  refine wp_bind (wp_workerStep (c := .readDescriptor fd) trivial hl₂.inv
    (fun ch₃ raw s₃ hexec₃ hl₃ => ?_) fun _ _ h => h)
  obtain rfl : raw = .record r := by
    have := hl.rely.base.record hinv hlt hr
    cases ch₃ <;> simp_all [execLive]
  refine wp_bind (wp_workerStep (c := .fstat fd) trivial hl₃.inv (fun _ after s₄ _ hl₄ => ?_)
    fun _ _ h => h)
  have hl' := (hl.trans hl₃).trans hl₄
  split
  · exact hl₄.inv
  · show triple calls strict (.heartbeat t) (if r.schemaVersion ≠ some 2 ∨ !r.renewsByMtime then _
      else if r.owner ≠ some (.lease (calls.owner t)) then _ else _) _ _ s₄
    split
    · exact hl₄.inv
    · split
      · exact hl₄.inv
      · rename_i hmine
        have hcreator : (s.file fd).creator = t := by
          have hsame : OwnerToken.lease (calls.owner (s.file fd).creator) =
              .lease (calls.owner t) :=
            Option.some.inj (howner.symm.trans (not_not.mp hmine))
          simp only [Calls.owner, OwnerToken.lease.injEq, LeaseOwner.mk.injEq] at hsame
          exact hsame.2.2
        exact wp_renewing (uses_renewOwnRecord _ _) hl₄.inv
          ⟨hlt.trans_le hl'.rely.base.next_le, (hl'.rely.base.creator fd hlt).trans hcreator⟩

/-- The rest of the worker changes only the words it shares with its call. -/
theorem wp_workerAux {ε α : Type} {p : Program Cmd Cmd.Response ε α} (hp : p.Uses Aux) (hinv : Inv calls s) : triple
    calls strict (.heartbeat t) p (fun _ s' => Inv calls s') (fun _ s' => Inv calls s') s := by
  refine wp_uses hp ?_ (fun _ _ _ hl => hl.inv) hinv hinv
  intro c hc s₁ ch r s' _ hinv₁ _ hexec
  have hg : (discipline calls strict).Guarantee (.heartbeat t) s₁ s' :=
    (execLive_aux hc (exec_some hexec).2).guarantee hinv₁
  exact ⟨hg, hg.inv⟩

theorem uses_closeDescriptor (descriptor : Option Nat) (failure : Option HeartbeatFailure) :
    (closeDescriptor descriptor failure).Uses Aux := by
  cases descriptor with
  | none => trivial
  | some fd => exact .attempt (.bind (uses_sys trivial) fun _ => trivial) fun _ => trivial

theorem uses_failHeartbeat (failure : HeartbeatFailure) : (failHeartbeat failure).Uses Aux := by
  refine .bind (uses_sys trivial) fun status => ?_
  split
  · trivial
  · exact .bind (uses_sys trivial) fun _ => .bind (uses_sys trivial) fun _ => trivial

theorem wp_renew (hinv : Inv calls s) :
    triple calls strict (.heartbeat t) (renew calls t) (fun _ s' => Inv calls s')
      (fun _ s' => Inv calls s') s := by
  refine wp_bind (wp_handle (wp_mono (wp_renewSteps hinv) (fun descriptor s₁ hinv₁ => ?_)
    fun (descriptor, error) s₁ hinv₁ => ?_))
  all_goals
    refine wp_mono (wp_workerAux (uses_closeDescriptor _ _) hinv₁) (fun failure s₂ hinv₂ => ?_)
      fun _ _ h => h
    cases failure with
    | none => exact hinv₂
    | some failure => exact wp_workerAux (uses_failHeartbeat failure) hinv₂

theorem wp_heartbeatLoop (turns : Nat) (hinv : Inv calls s) :
    triple calls strict (.heartbeat t) (heartbeatLoop calls t turns) (fun _ s' => Inv calls s')
      (fun _ s' => Inv calls s') s := by
  have hstep : ∀ {c : Cmd} {s : LeaseState}, Aux c → Inv calls s →
      triple calls strict (.heartbeat t) (sys c) (fun _ s' => Inv calls s')
        (fun _ s' => Inv calls s') s := fun hc hinv => wp_workerAux (uses_sys hc) hinv
  induction turns generalizing s with
  | zero => exact hinv
  | succ turns ih =>
    refine wp_bind (wp_mono (hstep trivial hinv) (fun stop s₁ hinv₁ => ?_) fun _ _ h => h)
    split
    · exact hinv₁
    · refine wp_bind (wp_mono (hstep trivial hinv₁) (fun _ s₂ hinv₂ => ?_) fun _ _ h => h)
      refine wp_bind (wp_mono (hstep trivial hinv₂) (fun stop s₃ hinv₃ => ?_) fun _ _ h => h)
      split
      · exact hinv₃
      · refine wp_bind (wp_mono (wp_renew hinv₃) (fun renewed s₄ hinv₄ => ?_) fun _ _ h => h)
        cases renewed with
        | true => exact ih hinv₄
        | false => exact hinv₄

theorem wp_heartbeatWorker (hinv : Inv calls s) :
    triple calls strict (.heartbeat t) (heartbeatWorker calls t) (fun _ s' => Inv calls s')
      (fun _ s' => Inv calls s') s := by
  have hstep : ∀ {c : Cmd} {s : LeaseState}, Aux c → Inv calls s →
      triple calls strict (.heartbeat t) (sys c) (fun _ s' => Inv calls s')
        (fun _ s' => Inv calls s') s := fun hc hinv => wp_workerAux (uses_sys hc) hinv
  refine wp_bind (wp_mono (hstep trivial hinv) (fun _ s₁ hinv₁ => ?_) fun _ _ h => h)
  refine wp_bind (wp_mono (wp_renew hinv₁) (fun renewed s₂ hinv₂ => ?_) fun _ _ h => h)
  cases renewed with
  | false => exact hinv₂
  | true =>
    refine wp_bind (wp_mono (hstep trivial hinv₂) (fun _ s₃ hinv₃ => ?_) fun _ _ h => h)
    refine wp_bind (wp_mono (wp_heartbeatLoop _ hinv₃) (fun _ s₄ hinv₄ => ?_) fun _ _ h => h)
    refine wp_bind (wp_mono (hstep trivial hinv₄) (fun status s₅ hinv₅ => ?_) fun _ _ h => h)
    split
    · refine wp_bind (wp_mono (wp_renew hinv₅) (fun final s₆ hinv₆ => ?_) fun _ _ h => h)
      cases final with
      | true => exact hstep trivial hinv₆
      | false => exact hinv₆
    · exact hinv₅

end Threads

/-! ## Runs -/

abbrev LeaseConfig := Config LeaseState Cmd Cmd.Response Thread LeaseError Unit

/-- Where each thread ends: a call that has settled has left no lock in a strict run. -/
def Ends (calls : Calls) (strict : Prop) (thread : Thread) (s : LeaseState) : Prop :=
  ∀ t, thread = .call t → Settled calls strict t s

abbrev VerifiedRun (calls : Calls) (strict : Prop) (cfg : LeaseConfig) : Prop :=
  Verified (machine calls) (Admits strict) (discipline calls strict)
    (fun thread _ ↦ Ends calls strict thread) (fun thread _ ↦ Ends calls strict thread) cfg

theorem inv_initial (now : Nat) : Inv calls (initial calls now).shared where
  names_lt _ _ h := by cases h
  used _ _ h := by cases h
  fresh _ _ _ _ := rfl
  init _ _ h := by cases h
  records _ _ h := by cases h
  lock_lease _ h := by cases h
  stale_lease _ _ h := by cases h
  holds _ _ h := by cases h

theorem verified_initial (calls : Calls) (strict : Prop) (now : Nat) :
    VerifiedRun calls strict (initial calls now) := by
  refine ⟨inv_initial now, fun thread s hl => ?_⟩
  cases thread with
  | call t =>
    have hidle : Idle calls strict t s := by
      refine ⟨hl.inv, (hl.rely.own t rfl).holding, fun _ ha => ?_⟩
      exact (hl.rely.own t rfl).notCarried ha fun _ h => by cases h
    have hends : ∀ s', Settled calls strict t s' → Ends calls strict (.call t) s' := by
      rintro s' h _ ⟨⟩
      exact h
    show triple calls strict (.call t)
      (if t < calls.count then withPlanStorageLease calls t else pure ()) _ _ s
    split
    · exact wp_mono (wp_withPlanStorageLease hidle) (fun _ s' h => hends s' h)
        fun _ s' h => hends s' h
    · exact hends s hidle.settled
  | heartbeat t =>
    have hends : ∀ s', Ends calls strict (.heartbeat t) s' := fun _ _ h => by cases h
    show triple calls strict (.heartbeat t)
      (if t < calls.count then heartbeatWorker calls t else pure ()) _ _ s
    split
    · exact wp_mono (wp_heartbeatWorker hl.inv) (fun _ s' _ => hends s') fun _ s' _ => hends s'
    · exact hends s

theorem verified_reach {now : Nat} {cfg : LeaseConfig} (h : (machine calls).ReachUnder (Admits strict) (initial calls
    now) cfg) : VerifiedRun calls strict cfg :=
  (verified_initial calls strict now).reach (fun _ _ _ => event_keeps) h

/-! ## Exclusion -/

/-- The lock file carries the owner token of call `t`. -/
def Carries (calls : Calls) (t : CallId) (s : LeaseState) : Prop :=
  ∃ i r, s.names .lock = some i ∧ (s.file i).content = .record r ∧
    r.owner = some (.lease (calls.owner t))

theorem carries_iff {t : CallId} {s : LeaseState} (hinv : Inv calls s) : Carries calls t s ↔ LockMine t s := by
  refine ⟨fun ⟨i, r, hi, hr, howner⟩ => ⟨i, hi, (hinv.records i r hr).eq_of_token howner rfl⟩,
    fun ⟨i, hi, hc⟩ => ?_⟩
  obtain ⟨r, hr, howner⟩ := hinv.lock_lease i hi
  exact ⟨i, r, hi, hr, hc ▸ howner⟩

/-- At most one live call is between its acquisition and its release. -/
def AtMostOneHolds (calls : Calls) (s : LeaseState) : Prop :=
  ∀ t u, calls.alive s t = true → s.holding t = true → calls.alive s u = true →
    s.holding u = true → t = u

/-- A live call that holds the lease has its lock at the lock path. -/
def HolderHasLock (calls : Calls) (s : LeaseState) : Prop :=
  ∀ t, calls.alive s t = true → s.holding t = true → Carries calls t s

/-- No step of another thread takes the lock of a live call from the lock path. -/
def ContendersSpare (calls : Calls) (cfg cfg' : LeaseConfig) (l : Label Thread Choice Event) : Prop :=
  ∀ t, (∀ ch, l ≠ .run (.call t) ch) → calls.alive cfg'.shared t = true →
    Carries calls t cfg.shared → Carries calls t cfg'.shared

theorem Inv.holderHasLock {s : LeaseState} (hinv : Inv calls s) : HolderHasLock calls s :=
  fun t ha hh => (carries_iff hinv).mpr (hinv.holds t ha hh)

theorem Inv.atMostOneHolds {s : LeaseState} (hinv : Inv calls s) : AtMostOneHolds calls s :=
  fun t u ha hh ha' hh' => (hinv.holds t ha hh).unique (hinv.holds u ha' hh')

/-- Every reclaim of the fence and every rename back of a lock is safe. -/
def Safe (thread : Thread) (c : Cmd) (_ : Choice) (s : LeaseState) : Prop :=
  SafeReclaim thread.id c s

theorem admits_of_safe {thread : Thread} {c : Cmd} {ch : Choice} {s : LeaseState}
    (h : Safe thread c ch s) : Admits False thread c ch s :=
  ⟨h, False.elim⟩

/-- In every run whose reclaims are safe no two live calls hold the lease, and the lock of a live
call is never renamed away, unlinked or replaced by a contender. -/
theorem lease_exclusive (calls : Calls) (now : Nat) (cfg : LeaseConfig)
    (h : (machine calls).ReachUnder Safe (initial calls now) cfg) :
    AtMostOneHolds calls cfg.shared ∧ HolderHasLock calls cfg.shared ∧
      ∀ l cfg', Machine.Allowed Safe cfg l → (machine calls).next cfg l = some cfg' →
        ContendersSpare calls cfg cfg' l := by
  have hv : VerifiedRun calls False cfg := verified_reach (h.mono fun _ _ _ _ ↦ admits_of_safe)
  refine ⟨hv.1.atMostOneHolds, hv.1.holderHasLock, fun l cfg' hallowed hnext t hother ha hc ↦ ?_⟩
  have hallowed' : Machine.Allowed (Admits False) cfg l :=
    hallowed.mono fun _ _ _ _ ↦ admits_of_safe
  have hrely := hv.rely_next (fun _ _ _ ↦ event_keeps) hallowed' hnext hother
  have hinv' : Inv calls cfg'.shared := (hv.next (fun _ _ _ ↦ event_keeps) hallowed' hnext).1
  obtain ⟨i, hi, hcreator⟩ := (carries_iff hv.1).mp hc
  obtain ⟨hi', hcreator'⟩ := (hrely.own t rfl).lock ha i hi hcreator
  exact (carries_iff hinv').mpr ⟨i, hi', hcreator'⟩

/-- Call `t` runs in the process `t + 1`. -/
def fiveCalls : Calls where
  count := 5
  hostname := ['h']
  mode _ := .sync
  pid t := t + 1
  pid_pos _ := Nat.succ_pos _
  timeoutMs _ := 1000
  turns _ := 3
  renewals _ := 1
  checkpoints _ := 0

def callSteps (n : Nat) (t : CallId) : List (Label Thread Choice Event) :=
  List.replicate n (.run (.call t) .ok)

def heartbeatSteps (n : Nat) (t : CallId) : List (Label Thread Choice Event) :=
  List.replicate n (.run (.heartbeat t) .ok)

/-- The part of the conditions that a run of one undisturbed call needs. -/
def calm (thread : Thread) (c : Cmd) (ch : Choice) (s : LeaseState) : Bool :=
  decide (ch = .ok) &&
    match c with
    | .openExclusive .fence => (s.names .fence).isNone
    | .unlink .fence => (s.names .fence).all fun i ↦ decide ((s.file i).creator = thread.id)
    | .rename (.stale _) .lock => (s.names .lock).isNone
    | .futimes _ _ => !s.releasing thread.id
    | _ => true

theorem calm_admits {thread : Thread} {c : Cmd} {ch : Choice} {s : LeaseState}
    (h : calm thread c ch s = true) : Admits True thread c ch s := by
  simp only [calm, Bool.and_eq_true, decide_eq_true_eq] at h
  obtain ⟨rfl, h⟩ := h
  refine ⟨?_, fun _ => ?_⟩
  · unfold SafeReclaim
    split
    · intro i hi
      exact .inl (by simpa [hi] using h)
    · simpa using h
    · trivial
  · unfold Undisturbed
    split
    · trivial
    · exact ⟨rfl, fun _ => by simpa using h⟩
    · trivial
    · trivial
    · rfl
    · simpa [Thread.id] using h
    · trivial

/-- Call 0 acquires the lease. -/
theorem lease_exclusive_acquired : ∃ cfg,
    (machine fiveCalls).ReachUnder Safe (initial fiveCalls 0) cfg ∧
      cfg.shared.holding 0 = true ∧ AtMostOneHolds fiveCalls cfg.shared := by
  have hrun : ((machine fiveCalls).runUnder (fun thread c ch s ↦ calm thread c ch s = true)
      (initial fiveCalls 0) (callSteps 12 0)).any (fun cfg ↦ cfg.shared.holding 0) = true := by
    decide
  obtain ⟨cfg, hcfg, hholding⟩ := (Option.any_eq_true _ _).mp hrun
  have hreach : (machine fiveCalls).ReachUnder Safe (initial fiveCalls 0) cfg :=
    (Machine.runUnder_reach hcfg).mono fun _ _ _ _ h ↦ (calm_admits h).1
  exact ⟨cfg, hreach, hholding, (lease_exclusive fiveCalls 0 cfg hreach).1⟩

def ended : Prog Unit → Bool
  | .step _ _ => false
  | _ => true

/-- A live holder's lock is not gone when all the other calls have settled or died. -/
def LockNotLost (calls : Calls) (cfg : LeaseConfig) : Prop :=
  ∀ t, calls.alive cfg.shared t = true → cfg.shared.holding t = true →
    (∀ u, u < calls.count → u ≠ t →
      (ended (cfg.prog (.call u)) || cfg.shared.dead (calls.pid u)) = true) →
    Carries calls t cfg.shared

/-- Calls 2 and 3 both judge the fence of the dead call 1; call 2 removes it, takes a fence of its
own and checks the lock of the dead call 0, and call 3 removes that fence.  So call 2 moves the lock
that call 3 has acquired since, and cannot put it back. -/
theorem lease_not_exclusive : ¬ ∀ cfg,
    (machine fiveCalls).Reach (initial fiveCalls 0) cfg → LockNotLost fiveCalls cfg := by
  intro hall
  have hrun : ((machine fiveCalls).run (initial fiveCalls 0)
      (callSteps 12 0 ++ [.event (.die 1)] ++ callSteps 30 1 ++ [.event (.die 2)] ++
        callSteps 27 2 ++ callSteps 23 3 ++ callSteps 20 2 ++ callSteps 35 3 ++ callSteps 1 2 ++
        callSteps 24 4 ++ callSteps 7 2 ++ [.run (.call 4) .timeout] ++ callSteps 23 4)).any
      (fun cfg ↦ !cfg.shared.dead 4 && cfg.shared.holding 3 && (cfg.shared.names .lock).isNone &&
        ended (cfg.prog (.call 2)) && ended (cfg.prog (.call 4)) && cfg.shared.dead 1 &&
        cfg.shared.dead 2) = true := by
    decide +kernel
  obtain ⟨cfg, hcfg, hend⟩ := (Option.any_eq_true _ _).mp hrun
  simp only [Bool.and_eq_true, Bool.not_eq_true', Option.isNone_iff_eq_none] at hend
  obtain ⟨⟨⟨⟨⟨⟨hlive, hholding⟩, hnone⟩, h₂⟩, h₄⟩, hdead₁⟩, hdead₂⟩ := hend
  have hothers : ∀ u, u < fiveCalls.count → u ≠ 3 →
      (ended (cfg.prog (.call u)) || cfg.shared.dead (fiveCalls.pid u)) = true := by
    intro u hu hne
    have hcases : u = 0 ∨ u = 1 ∨ u = 2 ∨ u = 4 := by
      have hu' : u < 5 := hu
      omega
    rcases hcases with rfl | rfl | rfl | rfl <;> simp [fiveCalls, h₂, h₄, hdead₁, hdead₂]
  obtain ⟨i, r, hi, -⟩ := hall cfg (Machine.run_reach hcfg) 3
    (by simpa [alive_iff, fiveCalls] using hlive) hholding hothers
  simp [hnone] at hi

/-! ## Release -/

/-- The lock of a settled call in a live process is no longer at the lock path. -/
def NothingLeaked (calls : Calls) (cfg : LeaseConfig) : Prop :=
  ∀ t, ended (cfg.prog (.call t)) = true → calls.alive cfg.shared t = true →
    ¬ Carries calls t cfg.shared

/-- Reclaims are safe, the file steps of the calls succeed, a releasing call creates its fence on a
free path, and no heartbeat renews the lock of a releasing call. -/
def SafeUndisturbed (thread : Thread) (c : Cmd) (ch : Choice) (s : LeaseState) : Prop :=
  SafeReclaim thread.id c s ∧ Undisturbed thread c ch s

theorem admits_of_undisturbed {thread : Thread} {c : Cmd} {ch : Choice} {s : LeaseState}
    (h : SafeUndisturbed thread c ch s) : Admits True thread c ch s :=
  ⟨h.1, fun _ => h.2⟩

theorem lease_not_leaked (calls : Calls) (now : Nat) (cfg : LeaseConfig)
    (h : (machine calls).ReachUnder SafeUndisturbed (initial calls now) cfg) :
    NothingLeaked calls cfg := by
  have hv : VerifiedRun calls True cfg :=
    verified_reach (h.mono fun _ _ _ _ ↦ admits_of_undisturbed)
  intro t hended ha hc
  have hsettled : Settled calls True t cfg.shared := by
    have hwp := hv.2 (.call t) cfg.shared (.self hv.1)
    cases hprog : cfg.prog (.call t) with
    | ret a =>
      rw [hprog] at hwp
      exact hwp t rfl
    | raise e =>
      rw [hprog] at hwp
      exact hwp t rfl
    | step c k => simp [hprog, ended] at hended
  obtain ⟨i, hi, hcreator⟩ := (carries_iff hv.1).mp hc
  exact hsettled.notCarried trivial ha i hi hcreator

/-- Call 0 acquires the lease, runs its transaction and settles. -/
theorem lease_not_leaked_settled : ∃ cfg,
    (machine fiveCalls).ReachUnder SafeUndisturbed (initial fiveCalls 0) cfg ∧
      ended (cfg.prog (.call 0)) = true ∧ NothingLeaked fiveCalls cfg := by
  have hrun : ((machine fiveCalls).runUnder (fun thread c ch s ↦ calm thread c ch s = true)
      (initial fiveCalls 0) (callSteps 14 0 ++ heartbeatSteps 16 0 ++ callSteps 21 0 ++
        heartbeatSteps 17 0 ++ callSteps 22 0)).any
      (fun cfg ↦ ended (cfg.prog (.call 0))) = true := by
    decide +kernel
  obtain ⟨cfg, hcfg, hend⟩ := (Option.any_eq_true _ _).mp hrun
  have hreach : (machine fiveCalls).ReachUnder SafeUndisturbed (initial fiveCalls 0) cfg :=
    (Machine.runUnder_reach hcfg).mono fun _ _ _ _ h ↦
      ⟨(calm_admits h).1, (calm_admits h).2 trivial⟩
  exact ⟨cfg, hreach, hend, lease_not_leaked fiveCalls 0 cfg hreach⟩

/-- Call 1 has judged the lock of the dead call 0 and takes the fence only when call 2, which has
replaced that lock meanwhile, is about to release: call 2 finds the fence taken and settles. -/
theorem lease_leaked : ¬ ∀ cfg,
    (machine fiveCalls).Reach (initial fiveCalls 0) cfg → NothingLeaked fiveCalls cfg := by
  intro hall
  have hrun : ((machine fiveCalls).run (initial fiveCalls 0)
      (callSteps 12 0 ++ [.event (.die 1)] ++ callSteps 26 1 ++ callSteps 46 2 ++
        heartbeatSteps 16 2 ++ callSteps 21 2 ++ heartbeatSteps 17 2 ++ callSteps 2 2 ++
        callSteps 4 1 ++ callSteps 12 2)).any
      (fun cfg ↦ ended (cfg.prog (.call 2)) && !cfg.shared.dead 3 &&
        (cfg.shared.names .lock).any fun i ↦ (parseLeaseRecord (cfg.shared.file i).content).any
          fun r ↦ decide (r.owner = some (.lease (fiveCalls.owner 2)))) = true := by
    decide +kernel
  obtain ⟨cfg, hcfg, hend⟩ := (Option.any_eq_true _ _).mp hrun
  simp only [Bool.and_eq_true, Bool.not_eq_true', Option.any_eq_true, decide_eq_true_eq] at hend
  obtain ⟨⟨hended, hlive⟩, i, hi, r, hr, howner⟩ := hend
  have hcontent : (cfg.shared.file i).content = .record r := by
    cases hcontent : (cfg.shared.file i).content <;> simp_all [parseLeaseRecord]
  exact hall cfg (Machine.run_reach hcfg) 2 hended (by simpa [alive_iff, fiveCalls] using hlive)
    ⟨i, r, hi, hcontent, howner⟩

end RabiRoute.Lease
