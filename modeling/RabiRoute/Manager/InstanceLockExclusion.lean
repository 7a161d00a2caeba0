import RabiRoute.Manager.InstanceLockDiscipline

/-!
# What the instance lock excludes

The programs of `managerInstanceLock.ts` keep the discipline on Windows and on Linux in every run, and
elsewhere in the runs in which no socket is bound between the look at a socket path and its unlink.
-/

open Interleave Interleave.Program

namespace RabiRoute.InstanceLock

/-- The path has been bound anew: since the probe of the call, or since its own close. -/
def raced (calls : Calls) (t : CallId) (s : LeaseState) : Cmd → Bool
  | .unlinkStale => (s.socket (calls.socketPath t)).any fun i ↦ decide (s.seen t ≠ some i)
  | .unlinkAgain => (s.socket (calls.socketPath t)).any fun i ↦ decide (s.bound t ≠ some i)
  | _ => false

/-- Without a flock, an unlink takes away only the socket that its call has looked at. -/
def Unraced (calls : Calls) (t : CallId) (c : Cmd) (_ : Choice) (s : LeaseState) : Prop :=
  calls.platform = .other → raced calls t s c = false

instance (calls : Calls) (t : CallId) (c : Cmd) (ch : Choice) (s : LeaseState) :
    Decidable (Unraced calls t c ch s) :=
  inferInstanceAs (Decidable (_ → _))

variable {calls : Calls}

abbrev triple (calls : Calls) (t : CallId) {α : Type} (p : Prog α) (Q : α → LeaseState → Prop)
    (E : LockError → LeaseState → Prop) (s : LeaseState) : Prop :=
  wp (machine calls) (Unraced calls) (discipline calls) t p Q E s

/-! ## What a call knows -/

/-- Call `t` does not hold the lock. -/
structure Idle (calls : Calls) (t : CallId) (s : LeaseState) : Prop where
  inv : Inv calls s
  holding : s.holding t = false

/-- On Linux call `t` has the flock. -/
def Permit (calls : Calls) (t : CallId) (s : LeaseState) : Prop :=
  calls.platform = .linux → calls.alive s t = true → s.flock = some t

def OwnsAlive (calls : Calls) (t : CallId) (s : LeaseState) : Prop :=
  calls.alive s t = true → Owns calls t s

/-- A fact that the other calls and the call's own diagnostics leave true. -/
structure Stable (calls : Calls) (t : CallId) (F : LeaseState → Prop) : Prop where
  later : ∀ {s s'}, F s → (discipline calls).Later t s s' → F s'
  files : ∀ {s} files, F s → F { s with files }

section Stable

variable {t : CallId} {F G : LeaseState → Prop}

theorem Stable.and (hF : Stable calls t F) (hG : Stable calls t G) : Stable calls t fun s => F s ∧ G s :=
  ⟨fun h hl => ⟨hF.later h.1 hl, hG.later h.2 hl⟩, fun files h => ⟨hF.files files h.1, hG.files files h.2⟩⟩

theorem Stable.imp {p : Prop} (hF : Stable calls t F) : Stable calls t fun s => p → F s :=
  ⟨fun h hl hp => hF.later (h hp) hl, fun files h hp => hF.files files (h hp)⟩

theorem frame_files (s : LeaseState) (files : Diagnostics) : Frame s { s with files } :=
  ⟨rfl, rfl, rfl, rfl, rfl, rfl, rfl⟩

theorem stable_idle : Stable calls t (Idle calls t) :=
  ⟨fun h hl => ⟨hl.inv, hl.rely.holding.trans h.holding⟩,
    fun files h => ⟨(frame_files _ files).inv h.inv fun _ _ hu => .inl hu, h.holding⟩⟩

theorem stable_quiet : Stable calls t (Quiet t) :=
  ⟨fun h hl => hl.rely.quiet h, fun _ h => h⟩

theorem stable_permit : Stable calls t (Permit calls t) :=
  ⟨fun h hl hlinux ha => hl.rely.flock (h hlinux (hl.rely.alive ha)) ha, fun _ h => h⟩

theorem stable_ownsAlive : Stable calls t (OwnsAlive calls t) :=
  ⟨fun h hl ha => hl.rely.owns (h (hl.rely.alive ha)) ha, fun files h ha => (frame_files _ files).owns (h ha)⟩

/-- Call `t` has neither lease. -/
def Start (calls : Calls) (t : CallId) (s : LeaseState) : Prop := Idle calls t s ∧ Quiet t s

/-- Call `t` may touch the socket path, and has no socket. -/
def Licensed (calls : Calls) (t : CallId) (s : LeaseState) : Prop :=
  Idle calls t s ∧ Quiet t s ∧ Permit calls t s

/-- Call `t` has what excludes the others, with or without a server. -/
def Leased (calls : Calls) (t : CallId) (lease : Bool) (s : LeaseState) : Prop :=
  Idle calls t s ∧ (lease = false → Quiet t s) ∧ Permit calls t s ∧ OwnsAlive calls t s

/-- The server of call `t` has given its name back. -/
def Closing (calls : Calls) (t : CallId) (s : LeaseState) : Prop := Idle calls t s ∧ Permit calls t s

theorem stable_start : Stable calls t (Start calls t) := stable_idle.and stable_quiet

theorem stable_licensed : Stable calls t (Licensed calls t) :=
  stable_idle.and (stable_quiet.and stable_permit)

theorem stable_leased {lease : Bool} : Stable calls t (Leased calls t lease) :=
  stable_idle.and (stable_quiet.imp.and (stable_permit.and stable_ownsAlive))

theorem stable_closing : Stable calls t (Closing calls t) := stable_idle.and stable_permit

theorem Licensed.start {s : LeaseState} (h : Licensed calls t s) : Start calls t s := ⟨h.1, h.2.1⟩

end Stable

/-! ## Diagnostics -/

/-- The commands that touch nothing but the diagnostics. -/
def isAux : Cmd → Bool
  | .mkdirRuntime | .openLeaseFile | .readLeaseOwner | .publishLeaseOwner | .unlinkLeaseOwner | .lstatSocket
  | .askOwner | .isListening | .renameReceipt | .unlinkRenamed | .openReceipt | .writeReceipt _ | .closeReceipt
  | .readReceipt | .unlinkReceipt => true
  | _ => false

section Steps

variable {t : CallId} {s : LeaseState} {E : LockError → LeaseState → Prop}

theorem wp_sys {c : Cmd} {Q : c.Val → LeaseState → Prop}
    (h : ∀ ch r s', Unraced calls t c ch s → calls.alive s t = true →
      execLive calls t s c ch = some (r, s') → (discipline calls).Guarantee t s s' ∧
        ∀ s'', (discipline calls).Later t s' s'' →
          (∀ v, r = .ok v → Q v s'') ∧ (∀ e, r = .error e → E e s'')) :
    triple calls t (sys c) Q E s := by
  refine wp_performOrThrow fun ch r s' hok hexec => ?_
  have halive : calls.alive s t = true := by
    by_contra hdead
    simp [machine, exec, hdead] at hexec
  exact h ch r s' hok halive (by simpa [machine, exec, halive] using hexec)

theorem execLive_aux {c : Cmd} {ch : Choice} {r : c.Response} {s' : LeaseState} (hc : isAux c = true)
    (h : execLive calls t s c ch = some (r, s')) : ∃ files, s' = { s with files } := by
  cases c with
  | renameReceipt =>
    simp only [execLive] at h
    split at h
    · cases h
      exact ⟨_, rfl⟩
    · cases hreceipt : s.files.receipt (calls.receiptPath t) with
      | none =>
        rw [hreceipt] at h
        cases h
        exact ⟨_, rfl⟩
      | some i =>
        rw [hreceipt] at h
        cases h
        exact ⟨_, rfl⟩
  | publishLeaseOwner | unlinkLeaseOwner | lstatSocket | unlinkRenamed | openReceipt | writeReceipt |
      readReceipt | unlinkReceipt =>
      simp only [execLive] at h
      repeat' split at h
      all_goals
        cases h
        exact ⟨_, rfl⟩
  | mkdirRuntime | openLeaseFile | readLeaseOwner | askOwner | isListening | closeReceipt =>
    cases h
    exact ⟨_, rfl⟩
  | flock | closeLeaseFile | listen | probe | unlinkStale | unlinkAgain | closeUnlink | closeListener |
      enter | leave => cases hc

/-- A program of diagnostics keeps a stable fact. -/
theorem wp_aux {α : Type} {p : Prog α} {F : LeaseState → Prop} (hF : Stable calls t F) (hinv : ∀ s, F s → Inv calls s)
    (hp : p.Uses (isAux · = true)) (h : F s) : triple calls t p (fun _ => F) (fun _ => F) s := by
  refine wp_uses hp (fun c hc s ch r s' _ hFs _ hexec => ?_) (fun _ _ => hF.later) (hinv s h) h
  have halive : calls.alive s t = true := by
    by_contra hdead
    simp [machine, exec, hdead] at hexec
  obtain ⟨files, rfl⟩ := execLive_aux hc (by simpa [machine, exec, halive] using hexec)
  exact ⟨guarantee_frame (frame_files s files) (hinv s hFs) (fun _ _ => rfl) rfl, hF.files files hFs⟩

theorem uses_sys {c : Cmd} (hc : isAux c = true) : (sys c).Uses (isAux · = true) :=
  Uses.performOrThrow hc

theorem uses_ite {α : Type} {c : Prop} [Decidable c] {p q : Prog α} (hp : p.Uses (isAux · = true))
    (hq : q.Uses (isAux · = true)) : (if c then p else q).Uses (isAux · = true) := by
  split
  · exact hp
  · exact hq

theorem uses_ignoreMissing {p : Prog Unit} (hp : p.Uses (isAux · = true)) : (ignoreMissing p).Uses (isAux · = true) :=
  .attempt hp fun _ => uses_ite trivial trivial

theorem uses_readManagerInstanceOwner : readManagerInstanceOwner.Uses (isAux · = true) :=
  .attempt (.bind (uses_sys rfl) fun _ => trivial) fun _ => trivial

theorem uses_writeExclusive : writeExclusive.Uses (isAux · = true) :=
  .bind (uses_sys rfl) fun _ => .ensure (uses_sys rfl) (uses_sys rfl)

theorem uses_removeDiagnosticLock : removeDiagnosticLock.Uses (isAux · = true) :=
  .bind (.attempt (.bind (uses_sys rfl) fun _ => trivial) fun _ => uses_ite trivial trivial) fun _ =>
    uses_ite (uses_ignoreMissing (uses_sys rfl)) trivial

theorem uses_checkLegacySocket : (checkLegacySocket calls).Uses (isAux · = true) :=
  uses_ite (.attempt (.bind (uses_sys rfl) fun _ => uses_ite trivial trivial) fun _ => uses_ite trivial trivial)
    trivial

theorem uses_legacyAbsent : legacyAbsent.Uses (isAux · = true) :=
  .attempt (.bind (uses_sys rfl) fun _ => trivial) fun _ => uses_ite trivial trivial

theorem uses_removeOwnReceipt : (removeOwnReceipt calls t).Uses (isAux · = true) :=
  .bind uses_readManagerInstanceOwner fun _ => uses_ite (.attempt (uses_sys rfl) fun _ => trivial) trivial

theorem uses_existingOwner : (existingOwner calls t).Uses (isAux · = true) := by
  refine .bind (uses_sys rfl) fun answer => ?_
  cases answer with
  | none => exact .bind uses_readManagerInstanceOwner fun _ => trivial
  | some owner => trivial

/-! ## The flock lease -/

theorem wp_flock (h : Start calls t s) {Q : FlockAnswer → LeaseState → Prop}
    (hconflict : ∀ s', Start calls t s' → Q .conflict s') (hacquired : ∀ s', Licensed calls t s' → Q .acquired s')
    (hE : ∀ e s', Start calls t s' → E e s') : triple calls t (sys .flock) Q E s := by
  refine wp_sys fun ch r s' _ ha hexec => ?_
  by_cases hheld : s.flock.isSome
  · simp only [execLive, if_pos hheld] at hexec
    cases hexec
    refine ⟨guarantee_self h.1.inv, fun s'' hl => ⟨fun v hv => ?_, fun e _ => hE e s'' (stable_start.later h hl)⟩⟩
    split at hv
    · cases hv
      exact hconflict s'' (stable_start.later h hl)
    · cases hv
  · have hfree : s.flock = none := by simpa using hheld
    have htaken : Start calls t { s with flock := some t } := ⟨⟨(guarantee_flock h.1.inv hfree).inv, h.1.holding⟩, h.2⟩
    simp only [execLive, if_neg hheld] at hexec
    split at hexec
    · cases hexec
      refine ⟨guarantee_flock h.1.inv hfree, fun s'' hl => ⟨fun v hv => ?_, fun e he => by cases he⟩⟩
      cases hv
      exact hacquired s'' (stable_licensed.later ⟨htaken.1, htaken.2, fun _ _ => rfl⟩ hl)
    · split at hexec
      · cases hexec
        exact ⟨guarantee_flock h.1.inv hfree, fun s'' hl =>
          ⟨(fun v hv => by cases hv), fun e _ => hE e s'' (stable_start.later htaken hl)⟩⟩
      · cases hexec
        exact ⟨guarantee_self h.1.inv, fun s'' hl =>
          ⟨(fun v hv => by cases hv), fun e _ => hE e s'' (stable_start.later h hl)⟩⟩

theorem wp_closeLeaseFile (h : Start calls t s) {Q : Unit → LeaseState → Prop}
    (hQ : ∀ s', Start calls t s' → Q () s') : triple calls t (sys .closeLeaseFile) Q E s := by
  refine wp_sys fun ch r s' _ _ hexec => ?_
  cases hexec
  have hg := guarantee_unlock h.1.inv h.1.holding h.2
  refine ⟨hg, fun s'' hl => ⟨fun _ _ => hQ s'' (stable_start.later ⟨⟨hg.inv, h.1.holding⟩, h.2⟩ hl), fun e he => ?_⟩⟩
  cases he

theorem inv_start (s : LeaseState) (h : Start calls t s) : Inv calls s := h.1.inv

theorem inv_licensed (s : LeaseState) (h : Licensed calls t s) : Inv calls s := h.1.inv

theorem inv_leased {lease : Bool} (s : LeaseState) (h : Leased calls t lease s) : Inv calls s := h.1.inv

theorem wp_releaseLinuxLease (h : Start calls t s) :
    triple calls t releaseLinuxLease (fun _ => Start calls t) (fun _ => Start calls t) s :=
  wp_ensure (wp_mono (wp_aux stable_start inv_start (uses_ignoreMissing (uses_sys rfl)) h)
    (fun _ _ h => wp_closeLeaseFile h fun _ h => h) fun _ _ h => wp_closeLeaseFile h fun _ h => h)

theorem wp_acquireLinuxProcessLease (h : Start calls t s) :
    triple calls t acquireLinuxProcessLease (fun _ => Licensed calls t) (fun _ => Start calls t) s := by
  refine wp_bind (wp_mono (wp_aux stable_start inv_start (uses_sys rfl) h) (fun _ s h => ?_) fun _ _ h => h)
  refine wp_attempt (wp_bind (wp_flock h (fun s h => ?_) (fun s h => ?_) fun e s h => ?_))
  · refine wp_bind (wp_mono (wp_aux stable_start inv_start (uses_sys rfl) h) (fun _ s h => ?_) fun _ s h => ?_)
    · exact wp_bind (wp_closeLeaseFile h fun _ h => h)
    · exact wp_bind (wp_closeLeaseFile h fun _ h => h)
  · exact wp_mono (wp_aux stable_licensed inv_licensed (uses_sys rfl) h) (fun _ _ h => h) fun _ s h =>
      wp_bind (wp_closeLeaseFile h.start fun _ h => h)
  · exact wp_bind (wp_closeLeaseFile h fun _ h => h)

/-! ## The socket lease -/

theorem wp_listen (h : Licensed calls t s) {Q : Unit → LeaseState → Prop} (hQ : ∀ s', Leased calls t true s' → Q () s')
    (hE : ∀ e s', Licensed calls t s' → E e s') : triple calls t (sys .listen) Q E s := by
  obtain ⟨hidle, hquiet, hpermit⟩ := h
  refine wp_sys fun ch r s' _ ha hexec => ?_
  have hsame : ∀ e : LockError, r = .error e → s' = s → (discipline calls).Guarantee t s s' ∧
      ∀ s'', (discipline calls).Later t s' s'' → (∀ v, r = .ok v → Q v s'') ∧ (∀ e, r = .error e → E e s'') := by
    rintro e rfl rfl
    exact ⟨guarantee_self hidle.inv, fun s'' hl =>
      ⟨(fun v hv => by cases hv), fun e _ => hE e s'' (stable_licensed.later ⟨hidle, hquiet, hpermit⟩ hl)⟩⟩
  have hleased : ∀ {s' : LeaseState}, (discipline calls).Guarantee t s s' → r = .ok () → s'.holding = s.holding →
      s'.dead = s.dead → s'.flock = s.flock → Owns calls t s' → (discipline calls).Guarantee t s s' ∧
      ∀ s'', (discipline calls).Later t s' s'' → (∀ v, r = .ok v → Q v s'') ∧ (∀ e, r = .error e → E e s'') := by
    rintro s' hg rfl hholding hdead hflock howns
    refine ⟨hg, fun s'' hl => ⟨fun v _ => hQ s'' (stable_leased.later ?_ hl), fun e he => by cases he⟩⟩
    refine ⟨⟨hg.inv, (congrFun hholding t).trans hidle.holding⟩, (fun hf => by cases hf), fun hlinux _ => ?_, fun _ => howns⟩
    exact hflock.trans (hpermit hlinux ha)
  by_cases hok : ch = .ok
  · simp only [execLive, if_pos hok, listen] at hexec
    split at hexec
    · next hwin =>
        split at hexec
        · cases hexec
          exact hsame .eaddrinuse rfl rfl
        · next hfree =>
            cases hexec
            refine hleased (guarantee_pipe hidle.inv (by simpa using hfree)) rfl rfl rfl rfl ?_
            unfold Owns
            rw [hwin]
    · next hwin =>
        split at hexec
        · cases hexec
          exact hsame .eaddrinuse rfl rfl
        · next hfree =>
            cases hexec
            refine hleased (guarantee_bind hidle.inv (by simpa using hfree) hquiet fun hlinux => hpermit hlinux ha)
              rfl rfl rfl rfl ?_
            unfold Owns
            cases hplatform : calls.platform with
            | win32 => exact absurd hplatform hwin
            | linux => exact hpermit hplatform ha
            | other => exact ⟨s.nextInode, if_pos rfl, if_pos rfl⟩
  · simp only [execLive, if_neg hok] at hexec
    cases hexec
    exact hsame _ rfl rfl

/-- What call `t` probed is a socket on which nobody listens. -/
def Judged (calls : Calls) (t : CallId) (s : LeaseState) : Prop :=
  calls.platform ≠ .win32 → ∀ i, s.seen t = some i → i < s.nextInode ∧ s.listener i = none

theorem Judged.later {s' : LeaseState} (h : Judged calls t s) (hl : (discipline calls).Later t s s') :
    Judged calls t s' := by
  intro hwin i hseen
  obtain ⟨hlt, hnone⟩ := h hwin i (hl.rely.seen.symm.trans hseen)
  exact ⟨hlt.trans_le hl.rely.next_le, hl.rely.silent i hlt hnone⟩

theorem wp_probe (h : Licensed calls t s) {Q : Bool → LeaseState → Prop} (hQ : ∀ stale s', Licensed calls t s' → (stale
    = true → Judged calls t s') → Q stale s') : triple calls t (sys .probe) Q E s := by
  refine wp_sys fun ch r s' _ _ hexec => ?_
  cases hexec
  have hframe : Frame s (s.setSeen t (s.socket (calls.socketPath t))) := ⟨rfl, rfl, rfl, rfl, rfl, rfl, rfl⟩
  have hg : (discipline calls).Guarantee t s (s.setSeen t (s.socket (calls.socketPath t))) :=
    guarantee_frame hframe h.1.inv (fun u hu => if_neg hu) rfl
  refine ⟨hg, fun s'' hl => ⟨fun stale hv => ?_, fun e he => by cases he⟩⟩
  refine hQ stale s'' (stable_licensed.later ⟨⟨hg.inv, h.1.holding⟩, h.2⟩ hl) fun hstale => Judged.later ?_ hl
  intro hwin i hseen
  have hpath : s.socket (calls.socketPath t) = some i := (if_pos rfl).symm.trans hseen
  refine ⟨h.1.inv.socket_lt _ i hpath, ?_⟩
  cases hv
  have hnone : calls.answering s t = none := by
    simpa using (Bool.and_eq_true_iff.mp hstale).2
  rwa [Calls.answering, if_neg hwin, hpath] at hnone

theorem execLive_unlink {ch : Choice} {r : Except LockError Unit} {s' : LeaseState} (h : (if ch = .ok then unlinkSocket
    calls t s else (.error .eio, s)) = (r, s')) : s' = s ∨ s' = s.unlink (calls.socketPath t) := by
  unfold unlinkSocket at h
  split at h
  · split at h
    · cases h
      exact .inr rfl
    · cases h
      exact .inl rfl
  · cases h
    exact .inl rfl

/-- An unlink of the socket path by a call that may touch it, when nobody else listens there. -/
theorem guarantee_unlinkSocket {ch : Choice} {r : Except LockError Unit} {s' : LeaseState}
    (hexec : (if ch = .ok then unlinkSocket calls t s else (.error .eio, s)) = (r, s')) (h : Licensed calls t s)
    (hother : ∀ u i, u ≠ t → s.socket (calls.socketPath t) = some i → s.listener i ≠ some u) :
    (discipline calls).Guarantee t s s' ∧ Licensed calls t s' := by
  rcases execLive_unlink hexec with rfl | rfl
  · exact ⟨guarantee_self h.1.inv, h⟩
  · have hg := guarantee_unlink h.1.inv h.1.holding hother
    exact ⟨hg, ⟨hg.inv, h.1.holding⟩, h.2⟩

/-- On Linux nobody listens but the holder of the flock. -/
theorem Permit.alone (hpermit : Permit calls t s) (hinv : Inv calls s) (ha : calls.alive s t = true)
    (hlinux : calls.platform = .linux) {u : CallId} {i : Inode} (hl : s.listener i = some u) : u = t :=
  Option.some.inj ((hinv.listener_locked i u hl hlinux).symm.trans (hpermit hlinux ha))

theorem wp_unlinkStale (h : Licensed calls t s) (hjudged : Judged calls t s) (hwin : calls.platform ≠ .win32) :
    triple calls t (sys .unlinkStale) (fun _ => Licensed calls t) (fun _ => Licensed calls t) s := by
  refine wp_sys fun ch r s' hsafe ha hexec => ?_
  have hkept := guarantee_unlinkSocket (Option.some.inj hexec) h fun u i hu hpath hl => by
    cases hplatform : calls.platform with
    | win32 => exact hwin hplatform
    | linux => exact hu (h.2.2.alone h.1.inv ha hplatform hl)
    | other =>
      have hseen : s.seen t = some i := by
        have hraced := hsafe hplatform
        simpa [raced, hpath] using hraced
      rw [(hjudged hwin i hseen).2] at hl
      cases hl
  exact ⟨hkept.1, fun s'' hl =>
    ⟨fun _ _ => stable_licensed.later hkept.2 hl, fun _ _ => stable_licensed.later hkept.2 hl⟩⟩

theorem wp_acquireOsLease (h : Licensed calls t s) :
    triple calls t (acquireOsLease calls) (fun _ => Leased calls t true) (fun _ => Licensed calls t) s := by
  refine wp_attempt (wp_listen h (fun _ h => h) fun error s h => ?_)
  split
  · exact h
  · next hcond =>
      have hwin : calls.platform ≠ .win32 := fun hwin => hcond (.inl hwin)
      refine wp_bind (wp_probe h fun stale s h hjudged => ?_)
      cases stale with
      | false => exact h
      | true =>
        refine wp_bind (wp_attempt (wp_mono (wp_unlinkStale h (hjudged rfl) hwin) (fun _ s h => ?_)
          fun e s h => ?_))
        · exact wp_listen h (fun _ h => h) fun _ _ h => h
        · split
          · exact wp_listen h (fun _ h => h) fun _ _ h => h
          · exact h

theorem wp_acquireSocketLease (h : Licensed calls t s) :
    triple calls t (acquireSocketLease calls) (fun lease => Leased calls t lease) (fun _ => Licensed calls t) s := by
  refine wp_bind (wp_mono (wp_aux stable_licensed inv_licensed uses_checkLegacySocket h) (fun _ s h => ?_)
    fun _ _ h => h)
  refine wp_attempt (wp_bind (wp_mono (wp_acquireOsLease h) (fun _ _ h => h) fun error s h => ?_))
  split
  · exact h
  · next hcond =>
      have hlinux : calls.platform = .linux := by
        by_contra hne
        exact hcond (.inl hne)
      refine wp_bind (wp_mono (wp_aux stable_licensed inv_licensed uses_legacyAbsent h) (fun absent s h => ?_)
        fun _ _ h => h)
      cases absent with
      | false => exact h
      | true =>
        -- no socket can be had: the flock alone excludes the others
        refine ⟨h.1, fun _ => h.2.1, h.2.2, fun ha => ?_⟩
        unfold Owns
        rw [hlinux]
        exact h.2.2 hlinux ha

/-! ## The whole lock -/

theorem wp_closeUnlink (h : Leased calls t true s) {Q : Unit → LeaseState → Prop}
    (hQ : ∀ s', Closing calls t s' → Q () s') : triple calls t (sys .closeUnlink) Q E s := by
  obtain ⟨hidle, -, hpermit, howns⟩ := h
  refine wp_sys fun ch r s' _ ha hexec => ?_
  simp only [execLive] at hexec
  split at hexec
  · cases hexec
    exact ⟨guarantee_self hidle.inv, fun s'' hl =>
      ⟨fun _ _ => hQ s'' (stable_closing.later ⟨hidle, hpermit⟩ hl), fun e he => by cases he⟩⟩
  · next hcond =>
      cases hexec
      have hg := guarantee_unlink (p := calls.socketPath t) hidle.inv hidle.holding fun u i hu hpath hl => by
        cases hplatform : calls.platform with
        | win32 => exact hcond (.inl hplatform)
        | linux => exact hu (hpermit.alone hidle.inv ha hplatform hl)
        | other =>
          have hown := howns ha
          unfold Owns at hown
          rw [hplatform] at hown
          obtain ⟨j, hj⟩ := hown
          have hij : i = j := Option.some.inj (hpath.symm.trans hj.path)
          rw [hij, hj.listener] at hl
          exact hu (Option.some.inj hl).symm
      exact ⟨hg, fun s'' hl => ⟨fun _ _ => hQ s'' (stable_closing.later ⟨⟨hg.inv, hidle.holding⟩, hpermit⟩ hl),
        fun e he => by cases he⟩⟩

theorem wp_closeListener (h : Closing calls t s) {Q : Unit → LeaseState → Prop}
    (hQ : ∀ s', Licensed calls t s' → Q () s') : triple calls t (sys .closeListener) Q E s := by
  refine wp_sys fun ch r s' _ _ hexec => ?_
  cases hexec
  have hg := guarantee_stop h.1.inv h.1.holding
  exact ⟨hg, fun s'' hl => ⟨fun _ _ => hQ s'' (stable_licensed.later
    ⟨⟨hg.inv, h.1.holding⟩, quiet_stop t s, h.2⟩ hl), fun e he => by cases he⟩⟩

theorem wp_closeLease (h : Leased calls t true s) : triple calls t closeLease (fun _ => Licensed calls t) E s := by
  refine wp_bind (wp_sys fun ch r s' _ _ hexec => ?_)
  cases hexec
  refine ⟨guarantee_self h.1.inv, fun s'' hl => ⟨fun listening hv => ?_, fun e he => by cases he⟩⟩
  have h' := stable_leased.later h hl
  cases listening with
  | true => exact wp_bind (wp_closeUnlink h' fun s h => wp_closeListener h fun _ h => h)
  | false =>
    -- a server that does not listen has nothing to close
    refine ⟨h'.1, hl.rely.quiet fun i hi => ?_, h'.2.2.1⟩
    have hbound := h.1.inv.listener_bound i t hi
    have hlistens : (decide (s.pipe = some t) || decide ((s.bound t).bind s.listener = some t)) = true := by
      rw [hbound, Option.bind_some, hi]
      simp
    exact absurd (Except.ok.inj hv).symm (by rw [hlistens]; exact Bool.false_ne_true)

/-- Give the server back, if there is one. -/
theorem wp_closeAcquired {lease : Bool} (h : Leased calls t lease s) :
    triple calls t (closeAcquired lease) (fun _ => Licensed calls t) E s := by
  cases lease with
  | true => exact wp_closeLease h
  | false => exact ⟨h.1, h.2.1 rfl, h.2.2.1⟩

theorem wp_releaseAcquired {linuxLease : Bool} (h : Start calls t s) :
    triple calls t (releaseAcquired linuxLease) (fun _ => Start calls t) (fun _ => Start calls t) s := by
  cases linuxLease with
  | true => exact wp_releaseLinuxLease h
  | false => exact h

theorem wp_acquireFlock (h : Start calls t s) :
    triple calls t (acquireFlock calls t (decide (calls.platform = Platform.linux))) (fun _ => Licensed calls t)
      (fun _ => Start calls t) s := by
  unfold acquireFlock
  by_cases hlinux : calls.platform = .linux
  · rw [decide_eq_true hlinux, if_pos rfl]
    refine wp_attempt (wp_mono (wp_acquireLinuxProcessLease h) (fun _ _ h => h) fun error s h => ?_)
    cases error <;> exact h
  · rw [decide_eq_false hlinux, if_neg Bool.false_ne_true]
    exact ⟨h.1, h.2, fun hl => absurd hl hlinux⟩

theorem wp_acquireManagerInstanceLock (h : Start calls t s) :
    triple calls t (acquireManagerInstanceLock calls t) (fun acquired => Leased calls t acquired.lease)
      (fun _ => Start calls t) s := by
  refine wp_bind (wp_mono (wp_aux stable_start inv_start (uses_sys rfl) h) (fun _ s h => ?_) fun _ _ h => h)
  refine wp_bind (wp_mono (wp_acquireFlock h) (fun _ s h => ?_) fun _ _ h => h)
  refine wp_bind (wp_attempt (wp_mono (wp_acquireSocketLease h) (fun lease s h => ?_) fun error s h => ?_))
  · refine wp_bind (wp_attempt (wp_mono (wp_aux stable_leased inv_leased
      (.bind uses_removeDiagnosticLock fun _ => uses_writeExclusive) h) (fun _ _ h => h) fun error s h => ?_))
    refine wp_bind (wp_mono (wp_closeAcquired (E := fun _ => Start calls t) h) (fun _ s h => ?_) fun _ _ h => h)
    exact wp_bind (wp_mono (wp_releaseAcquired h.start) (fun _ _ h => h) fun _ _ h => h)
  · refine wp_bind (wp_mono (wp_releaseAcquired h.start) (fun _ s h => ?_) fun _ _ h => h)
    split
    · exact h
    · exact wp_bind (wp_mono (wp_aux stable_start inv_start uses_existingOwner h) (fun _ _ h => h) fun _ _ h => h)

theorem wp_unlinkAgain (h : Licensed calls t s) (hother : calls.platform = .other) :
    triple calls t (sys .unlinkAgain) (fun _ => Licensed calls t) (fun _ => Licensed calls t) s := by
  refine wp_sys fun ch r s' hsafe ha hexec => ?_
  have hkept := guarantee_unlinkSocket (Option.some.inj hexec) h fun u i hu hpath hl => by
    have hbound : s.bound t = some i := by
      have hraced := hsafe hother
      simpa [raced, hpath] using hraced
    exact hu (h.1.inv.bound_unique u t i (h.1.inv.listener_bound i u hl) hbound)
  exact ⟨hkept.1, fun s'' hl =>
    ⟨fun _ _ => stable_licensed.later hkept.2 hl, fun _ _ => stable_licensed.later hkept.2 hl⟩⟩

theorem wp_unlinkLeaseAddress (h : Licensed calls t s) :
    triple calls t (unlinkLeaseAddress calls) (fun _ => Licensed calls t) (fun _ => Licensed calls t) s := by
  unfold unlinkLeaseAddress
  split
  · next hother => exact wp_attempt (wp_mono (wp_unlinkAgain h hother) (fun _ _ h => h) fun _ _ h => h)
  · exact h

theorem wp_release {acquired : Acquired} (h : Leased calls t acquired.lease s) :
    triple calls t (release calls t acquired) (fun _ => Start calls t) (fun _ => Start calls t) s := by
  refine wp_bind (wp_mono (wp_closeAcquired (E := fun _ => Start calls t) h) (fun _ s h => ?_) fun _ _ h => h)
  refine wp_bind (wp_mono (wp_aux stable_licensed inv_licensed uses_removeOwnReceipt h) (fun _ s h => ?_)
    fun _ _ h => h.start)
  refine wp_bind (wp_mono (wp_unlinkLeaseAddress h) (fun _ s h => ?_) fun _ _ h => h.start)
  exact wp_releaseAcquired h.start

theorem wp_ownInstanceLock (h : Start calls t s) :
    triple calls t (ownInstanceLock calls t) (fun _ _ => True) (fun _ _ => True) s := by
  refine wp_bind (wp_mono (wp_acquireManagerInstanceLock h) (fun acquired s h => ?_) fun _ _ _ => trivial)
  obtain ⟨hidle, hquiet, hpermit, howns⟩ := h
  refine wp_bind (wp_sys fun ch r s' _ _ hexec => ?_)
  cases hexec
  have hg := guarantee_setHolding (b := true) hidle.inv fun _ => howns
  refine ⟨hg, fun s₁ hl₁ => ⟨fun _ _ => ?_, fun e he => by cases he⟩⟩
  refine wp_bind (wp_sys fun ch r s' _ _ hexec => ?_)
  cases hexec
  have hframe : Frame s (s.setHolding t true) := ⟨rfl, rfl, rfl, rfl, rfl, rfl, rfl⟩
  have hframe₁ : Frame s₁ (s₁.setHolding t false) := ⟨rfl, rfl, rfl, rfl, rfl, rfl, rfl⟩
  have hg₁ := guarantee_setHolding (t := t) (b := false) hl₁.inv fun hb => by cases hb
  have hstable : Stable calls t fun s => acquired.lease = false → Quiet t s := stable_quiet.imp
  have hquiet₁ := hstable.later (s := s.setHolding t true) hquiet hl₁
  have hpermit₁ := stable_permit.later (s := s.setHolding t true) hpermit hl₁
  have howns₁ : OwnsAlive calls t s₁ :=
    stable_ownsAlive.later (s := s.setHolding t true) (fun ha => hframe.owns (howns ha)) hl₁
  refine ⟨hg₁, fun s₂ hl₂ => ⟨fun _ _ => ?_, fun e he => by cases he⟩⟩
  have hleased : Leased calls t acquired.lease (s₁.setHolding t false) :=
    ⟨⟨hg₁.inv, if_pos rfl⟩, hquiet₁, hpermit₁, fun ha => hframe₁.owns (howns₁ ha)⟩
  exact wp_mono (wp_release (stable_leased.later hleased hl₂)) (fun _ _ _ => trivial) fun _ _ _ => trivial

end Steps

/-! ## Runs -/

/-- Calls that have not started, on a host where earlier Managers may have left sockets and receipts. -/
structure Leftover where
  files : Diagnostics
  socket : SocketPath → Option Inode
  ownSocket : Inode → Bool
  nextInode : Inode
  socket_lt : ∀ p i, socket p = some i → i < nextInode

abbrev start (calls : Calls) (left : Leftover) : Config LeaseState Cmd Cmd.Response CallId LockError Unit :=
  initial calls left.files left.socket left.ownSocket left.nextInode

theorem verified_initial (calls : Calls) (left : Leftover) :
    Verified (machine calls) (Unraced calls) (discipline calls) (fun _ _ _ => True) (fun _ _ _ => True)
      (start calls left) := by
  have hinv : Inv calls (start calls left).shared :=
    ⟨left.socket_lt, (fun _ _ h => by cases h), (fun _ _ h => by cases h), (fun _ _ h => by cases h),
      (fun _ _ h => by cases h), (fun _ _ _ h => by cases h), fun _ _ h => by cases h⟩
  exact ⟨hinv, fun t s hl => wp_ownInstanceLock ⟨⟨hl.inv, hl.rely.holding⟩,
    stable_quiet.later (s := (start calls left).shared) (fun _ h => by cases h) hl⟩⟩

theorem verified_reach {left : Leftover} {cfg : Config LeaseState Cmd Cmd.Response CallId LockError Unit}
    (h : (machine calls).ReachUnder (Unraced calls) (start calls left) cfg) :
    Verified (machine calls) (Unraced calls) (discipline calls) (fun _ _ _ => True) (fun _ _ _ => True) cfg :=
  (verified_initial calls left).reach (fun _ _ _ => event_keeps) h

/-- At most one live call owns the lock. -/
def MutualExclusion (calls : Calls) (s : LeaseState) : Prop :=
  ∀ t u, calls.alive s t = true → s.holding t = true → calls.alive s u = true → s.holding u = true → t = u

/-- What the next step of the others leaves of a live owner's socket. -/
def OwnersSpared (calls : Calls) (cfg : Config LeaseState Cmd Cmd.Response CallId LockError Unit) : Prop :=
  ∀ l cfg', Machine.Allowed (Unraced calls) cfg l → (machine calls).next cfg l = some cfg' →
    ∀ u i, (∀ ch, l ≠ .run u ch) → calls.alive cfg'.shared u = true → cfg.shared.holding u = true →
      InPlace calls u i cfg.shared → InPlace calls u i cfg'.shared

theorem Inv.mutualExclusion {s : LeaseState} (hinv : Inv calls s) (hpath : calls.platform = .other → ∀ t u,
    calls.socketPath t = calls.socketPath u) : MutualExclusion calls s := by
  intro t u ht hht hu hhu
  have howns := hinv.holds t ht hht
  have howns' := hinv.holds u hu hhu
  unfold Owns at howns howns'
  cases hplatform : calls.platform with
  | win32 =>
    rw [hplatform] at howns howns'
    exact Option.some.inj (howns.symm.trans howns')
  | linux =>
    rw [hplatform] at howns howns'
    exact Option.some.inj (howns.symm.trans howns')
  | other =>
    rw [hplatform] at howns howns'
    obtain ⟨i, hi⟩ := howns
    obtain ⟨j, hj⟩ := howns'
    have hsame : s.socket (calls.socketPath t) = some j := hpath hplatform u t ▸ hj.path
    have hij : i = j := Option.some.inj (hi.path.symm.trans hsame)
    rw [hij] at hi
    exact Option.some.inj (hi.listener.symm.trans hj.listener)

/-- On Windows and on Linux in every run, and elsewhere in every run of calls with one socket path in
which no unlink meets a socket bound since its caller looked: at most one live call owns the lock, and
nobody takes a live owner's socket away. -/
theorem one_owner (calls : Calls) (left : Leftover) (cfg : Config LeaseState Cmd Cmd.Response CallId LockError Unit)
    (hpath : calls.platform = .other → ∀ t u, calls.socketPath t = calls.socketPath u)
    (h : (machine calls).ReachUnder (Unraced calls) (start calls left) cfg) :
    MutualExclusion calls cfg.shared ∧ OwnersSpared calls cfg := by
  have hv := verified_reach h
  refine ⟨hv.1.mutualExclusion hpath, fun l cfg' hallowed hnext u i hother ha _ hi ↦ ?_⟩
  exact (hv.rely_next (fun _ _ _ ↦ event_keeps) hallowed hnext hother).place i hi ha

/-- Call `t` runs in the process `t + 1`, on a system without a flock. -/
def darwinCalls : Calls where
  platform := .other
  pid t := t + 1
  socketPath _ := 0
  receiptPath _ := 0
  owner t := ⟨t + 1, [], [], []⟩

/-- An earlier Manager died and left its socket. -/
def staleSocket : Leftover where
  files := ⟨fun _ ↦ none, fun _ _ ↦ none, fun _ ↦ .blank, 0, none⟩
  socket _ := some 0
  ownSocket _ := true
  nextInode := 1
  socket_lt _ _ h := Option.some.inj h ▸ Nat.zero_lt_one

def steps (n : Nat) (t : CallId) : List (Label CallId Choice Event) :=
  List.replicate n (.run t .ok)

/-- Call 0 takes over the stale socket and dies; call 1 takes over the socket of call 0. -/
theorem one_owner_takeover : ∃ cfg,
    (machine darwinCalls).ReachUnder (Unraced darwinCalls) (start darwinCalls staleSocket) cfg ∧
      cfg.shared.holding 1 = true ∧ MutualExclusion darwinCalls cfg.shared ∧ OwnersSpared darwinCalls cfg := by
  have hrun : ((machine darwinCalls).runUnder (Unraced darwinCalls) (start darwinCalls staleSocket)
      (steps 10 0 ++ [.event (.die 1)] ++ steps 11 1)).any (fun cfg ↦ cfg.shared.holding 1) = true := by
    decide
  obtain ⟨cfg, hcfg, hholding⟩ := (Option.any_eq_true _ _).mp hrun
  have hreach := Machine.runUnder_reach hcfg
  exact ⟨cfg, hreach, hholding, one_owner darwinCalls staleSocket cfg (fun _ _ _ ↦ rfl) hreach⟩

/-- Calls 0 and 1 both find the socket stale; call 0 replaces it and owns the lock, and the unlink of
call 1 then removes the socket of call 0. -/
theorem two_owners : ¬∀ cfg, (machine darwinCalls).Reach (start darwinCalls staleSocket) cfg →
    MutualExclusion darwinCalls cfg.shared := by
  intro hall
  have hrun : ((machine darwinCalls).run (start darwinCalls staleSocket)
      (steps 3 0 ++ steps 3 1 ++ steps 7 0 ++ steps 8 1)).any (fun cfg ↦
        !cfg.shared.dead 1 && !cfg.shared.dead 2 && cfg.shared.holding 0 && cfg.shared.holding 1) = true := by
    decide
  obtain ⟨cfg, hcfg, hholding⟩ := (Option.any_eq_true _ _).mp hrun
  simp only [Bool.and_eq_true, Bool.not_eq_true'] at hholding
  obtain ⟨⟨⟨hlive₀, hlive₁⟩, h₀⟩, h₁⟩ := hholding
  have heq := hall cfg (Machine.run_reach hcfg) 0 1 (alive_iff.mpr hlive₀) h₀ (alive_iff.mpr hlive₁) h₁
  exact absurd heq (by decide)

end RabiRoute.InstanceLock
