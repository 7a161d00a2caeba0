import RabiRoute.Manager.InstanceLock
import RabiRoute.Interleave.RelyGuarantee

/-!
# What the calls of the instance lock leave each other

A call that listens keeps its pipe, or its socket in place; the holder of the flock keeps it.  On Linux
only the holder of the flock touches a socket.  Here each step that the calls make is shown to keep
this, given what its caller knows.
-/

open Interleave Interleave.Program

namespace RabiRoute.InstanceLock

variable {calls : Calls}

theorem alive_iff {s : LeaseState} {t : CallId} : calls.alive s t = true ↔ s.dead (calls.pid t) = false := by
  simp [Calls.alive]

/-- No server of call `t` listens on a socket. -/
def Quiet (t : CallId) (s : LeaseState) : Prop := ∀ i, s.listener i ≠ some t

/-- The socket path of call `t` names the socket on which it listens. -/
structure InPlace (calls : Calls) (t : CallId) (i : Inode) (s : LeaseState) : Prop where
  listener : s.listener i = some t
  path : s.socket (calls.socketPath t) = some i

/-- What excludes the others, by platform. -/
def Owns (calls : Calls) (t : CallId) (s : LeaseState) : Prop :=
  match calls.platform with
  | .win32 => s.pipe = some t
  | .linux => s.flock = some t
  | .other => ∃ i, InPlace calls t i s

theorem Owns.mono {t : CallId} {s s' : LeaseState} (h : Owns calls t s)
    (hpipe : s.pipe = some t → s'.pipe = some t) (hflock : s.flock = some t → s'.flock = some t)
    (hplace : ∀ i, InPlace calls t i s → InPlace calls t i s') : Owns calls t s' := by
  unfold Owns at h ⊢
  cases hplatform : calls.platform with
  | win32 =>
    rw [hplatform] at h
    exact hpipe h
  | linux =>
    rw [hplatform] at h
    exact hflock h
  | other =>
    rw [hplatform] at h
    obtain ⟨i, hi⟩ := h
    exact ⟨i, hplace i hi⟩

structure Inv (calls : Calls) (s : LeaseState) : Prop where
  socket_lt : ∀ p i, s.socket p = some i → i < s.nextInode
  listener_lt : ∀ i t, s.listener i = some t → i < s.nextInode
  listener_locked : ∀ i t, s.listener i = some t → calls.platform = .linux → s.flock = some t
  listener_bound : ∀ i t, s.listener i = some t → s.bound t = some i
  bound_lt : ∀ t i, s.bound t = some i → i < s.nextInode
  bound_unique : ∀ t u i, s.bound t = some i → s.bound u = some i → t = u
  holds : ∀ t, calls.alive s t = true → s.holding t = true → Owns calls t s

/-- What deaths and the other calls may do between two steps of call `t`. -/
structure Rely (calls : Calls) (t : CallId) (s s' : LeaseState) : Prop where
  dead : ∀ p, s.dead p = true → s'.dead p = true
  next_le : s.nextInode ≤ s'.nextInode
  seen : s'.seen t = s.seen t
  bound : s'.bound t = s.bound t
  holding : s'.holding t = s.holding t
  flock : s.flock = some t → calls.alive s' t = true → s'.flock = some t
  pipe : s.pipe = some t → calls.alive s' t = true → s'.pipe = some t
  place : ∀ i, InPlace calls t i s → calls.alive s' t = true → InPlace calls t i s'
  quiet : Quiet t s → Quiet t s'
  /-- A socket that nobody listens on stays so. -/
  silent : ∀ i, i < s.nextInode → s.listener i = none → s'.listener i = none

theorem Rely.alive {t : CallId} {s s' : LeaseState} (h : Rely calls t s s') {u : CallId}
    (hu : calls.alive s' u = true) : calls.alive s u = true := by
  rw [alive_iff] at *
  by_contra hd
  have := h.dead _ (by simpa using hd)
  simp [this] at hu

theorem Rely.refl (t : CallId) (s : LeaseState) : Rely calls t s s :=
  ⟨fun _ h => h, le_refl _, rfl, rfl, rfl, fun h _ => h, fun h _ => h, fun _ h _ => h, fun h => h, fun _ _ h => h⟩

theorem Rely.trans {t : CallId} {s s' s'' : LeaseState} (h : Rely calls t s s')
    (h' : Rely calls t s' s'') : Rely calls t s s'' where
  dead p hp := h'.dead p (h.dead p hp)
  next_le := h.next_le.trans h'.next_le
  seen := h'.seen.trans h.seen
  bound := h'.bound.trans h.bound
  holding := h'.holding.trans h.holding
  flock hf ha := h'.flock (h.flock hf (h'.alive ha)) ha
  pipe hp ha := h'.pipe (h.pipe hp (h'.alive ha)) ha
  place i hi ha := h'.place i (h.place i hi (h'.alive ha)) ha
  quiet hq := h'.quiet (h.quiet hq)
  silent i hi hl := h'.silent i (hi.trans_le h.next_le) (h.silent i hi hl)

def discipline (calls : Calls) : Discipline LeaseState CallId :=
  ⟨Inv calls, Rely calls, Rely.refl, fun _ _ _ _ ↦ Rely.trans⟩

theorem Rely.owns {t : CallId} {s s' : LeaseState} (h : Rely calls t s s') (howns : Owns calls t s)
    (ha : calls.alive s' t = true) : Owns calls t s' :=
  howns.mono (h.pipe · ha) (h.flock · ha) fun i hi => h.place i hi ha

/-! ## The effects of single steps -/

/-- A step that leaves the leases and the sockets alone. -/
structure Frame (s s' : LeaseState) : Prop where
  dead : s'.dead = s.dead
  flock : s'.flock = s.flock
  pipe : s'.pipe = s.pipe
  socket : s'.socket = s.socket
  listener : s'.listener = s.listener
  next : s'.nextInode = s.nextInode
  bound : s'.bound = s.bound

theorem Frame.alive {s s' : LeaseState} (h : Frame s s') (t : CallId) : calls.alive s' t = calls.alive s t := by
  unfold Calls.alive
  rw [h.dead]

theorem Frame.inPlace {s s' : LeaseState} (h : Frame s s') {t : CallId} {i : Inode}
    (hp : InPlace calls t i s) : InPlace calls t i s' :=
  ⟨by rw [h.listener]; exact hp.listener, by rw [h.socket]; exact hp.path⟩

theorem Frame.rely {t : CallId} {s s' : LeaseState} (h : Frame s s') (hseen : s'.seen t = s.seen t)
    (hholding : s'.holding t = s.holding t) : Rely calls t s s' where
  dead p hp := by rw [h.dead]; exact hp
  next_le := h.next.ge
  seen := hseen
  bound := by rw [h.bound]
  holding := hholding
  flock hf _ := by rw [h.flock]; exact hf
  pipe hp _ := by rw [h.pipe]; exact hp
  place i hi _ := h.inPlace hi
  quiet hq i := by rw [h.listener]; exact hq i
  silent i _ hl := by rw [h.listener]; exact hl

theorem Frame.owns {s s' : LeaseState} (h : Frame s s') {t : CallId} (howns : Owns calls t s) : Owns calls t s' :=
  howns.mono h.pipe.trans h.flock.trans fun _ => h.inPlace

theorem Frame.inv {s s' : LeaseState} (h : Frame s s') (hinv : Inv calls s)
    (hholding : ∀ u, calls.alive s u = true → s'.holding u = true → s.holding u = true ∨ Owns calls u s) :
    Inv calls s' where
  socket_lt := by
    rw [h.socket, h.next]
    exact hinv.socket_lt
  listener_lt := by
    rw [h.listener, h.next]
    exact hinv.listener_lt
  listener_locked := by
    rw [h.listener, h.flock]
    exact hinv.listener_locked
  listener_bound := by
    rw [h.listener, h.bound]
    exact hinv.listener_bound
  bound_lt := by
    rw [h.bound, h.next]
    exact hinv.bound_lt
  bound_unique := by
    rw [h.bound]
    exact hinv.bound_unique
  holds u ha hu := by
    rw [h.alive] at ha
    rcases hholding u ha hu with hold | howns
    · exact h.owns (hinv.holds u ha hold)
    · exact h.owns howns

theorem guarantee_self {t : CallId} {s : LeaseState} (hinv : Inv calls s) : (discipline calls).Guarantee t s s :=
  ⟨hinv, fun u _ => Rely.refl u s⟩

theorem guarantee_frame {t : CallId} {s s' : LeaseState} (h : Frame s s') (hinv : Inv calls s) (hseen : ∀ u, u ≠ t →
    s'.seen u = s.seen u) (hholding : s'.holding = s.holding) : (discipline calls).Guarantee t s s' :=
  ⟨h.inv hinv fun u _ hu => .inl (hholding ▸ hu), fun u hu => h.rely (hseen u hu) (by rw [hholding])⟩

theorem guarantee_setHolding {t : CallId} {s : LeaseState} {b : Bool} (hinv : Inv calls s) (hb : b = true → calls.alive
    s t = true → Owns calls t s) : (discipline calls).Guarantee t s (s.setHolding t b) := by
  have hframe : Frame s (s.setHolding t b) := ⟨rfl, rfl, rfl, rfl, rfl, rfl, rfl⟩
  refine ⟨hframe.inv hinv fun u ha hu => ?_, fun u hu => hframe.rely rfl (by simp [LeaseState.setHolding, hu])⟩
  by_cases hut : u = t
  · subst hut
    exact .inr (hb (by simpa [LeaseState.setHolding] using hu) ha)
  · exact .inl (by simpa [LeaseState.setHolding, hut] using hu)

/-! ### Deaths -/

theorem filter_alive {o : Option CallId} {t : CallId} {p : Pid}
    (h : o = some t) (hp : calls.pid t ≠ p) : (o.filter fun u => decide (calls.pid u ≠ p)) = some t := by
  rw [h, Option.filter_some, if_pos (by simpa using hp)]

theorem of_filter {o : Option CallId} {t : CallId} {p : Pid}
    (h : (o.filter fun u => decide (calls.pid u ≠ p)) = some t) : o = some t ∧ calls.pid t ≠ p := by
  obtain ⟨ho, hp⟩ := Option.filter_eq_some_iff.mp h
  exact ⟨ho, of_decide_eq_true hp⟩

theorem bury_alive {pid : Pid} {s : LeaseState} {t : CallId} (ha : calls.alive (bury calls pid s) t = true) :
    calls.pid t ≠ pid ∧ calls.alive s t = true := by
  rw [alive_iff] at ha ⊢
  have hdead : (if calls.pid t = pid then true else s.dead (calls.pid t)) = false := ha
  by_cases hp : calls.pid t = pid
  · rw [if_pos hp] at hdead
    cases hdead
  · rw [if_neg hp] at hdead
    exact ⟨hp, hdead⟩

theorem bury_rely (pid : Pid) (s : LeaseState) (t : CallId) : Rely calls t s (bury calls pid s) where
  dead p hp := by
    show (if p = pid then true else s.dead p) = true
    rw [hp, ite_self]
  next_le := le_refl _
  seen := rfl
  bound := rfl
  holding := rfl
  flock hf ha := filter_alive hf (bury_alive ha).1
  pipe hp ha := filter_alive hp (bury_alive ha).1
  place i hi ha := ⟨filter_alive hi.listener (bury_alive ha).1, hi.path⟩
  quiet hq i hl := hq i (of_filter hl).1
  silent i _ hl := by
    show Option.filter _ (s.listener i) = none
    rw [hl, Option.filter_none]

theorem event_keeps {e : Event} {s s' : LeaseState} (hinv : Inv calls s) (he : (machine calls).event e s = some s') :
    Inv calls s' ∧ ∀ t, Rely calls t s s' := by
  cases e with
  | die pid =>
    obtain rfl := Option.some.inj he
    refine ⟨⟨hinv.socket_lt, fun i t hl => hinv.listener_lt i t (of_filter hl).1, fun i t hl hlinux => ?_,
      fun i t hl => hinv.listener_bound i t (of_filter hl).1, hinv.bound_lt, hinv.bound_unique,
      fun t ha hh => ?_⟩, bury_rely pid s⟩
    · obtain ⟨hl, hp⟩ := of_filter hl
      exact filter_alive (hinv.listener_locked i t hl hlinux) hp
    · exact (bury_rely pid s t).owns (hinv.holds t (bury_alive ha).2 hh) ha

/-! ### Leases -/

/-- Call `t` takes the free flock. -/
theorem guarantee_flock {t : CallId} {s : LeaseState} (hinv : Inv calls s) (hfree : s.flock = none) :
    (discipline calls).Guarantee t s { s with flock := some t } := by
  have hnone : ∀ u, s.flock ≠ some u := fun u hu => by
    rw [hfree] at hu
    cases hu
  refine ⟨⟨hinv.socket_lt, hinv.listener_lt, fun i u hl hlinux => ?_, hinv.listener_bound, hinv.bound_lt,
    hinv.bound_unique, fun u ha hu => ?_⟩, fun u _ =>
    ⟨fun _ h => h, le_refl _, rfl, rfl, rfl, fun h _ => absurd h (hnone u), fun h _ => h, fun _ h _ => ⟨h.1, h.2⟩,
      fun h => h, fun _ _ h => h⟩⟩
  · exact absurd (hinv.listener_locked i u hl hlinux) (hnone u)
  · exact (hinv.holds u ha hu).mono (fun h => h) (fun h => absurd h (hnone u)) fun _ h => ⟨h.1, h.2⟩

/-- Call `t`, which neither holds nor listens, closes its lease file. -/
theorem guarantee_unlock {t : CallId} {s : LeaseState} (hinv : Inv calls s) (hidle : s.holding t = false)
    (hquiet : Quiet t s) : (discipline calls).Guarantee t s (s.unlock t) := by
  have hother : ∀ u, u ≠ t → s.flock = some u → (s.unlock t).flock = some u := by
    intro u hu hf
    show (if s.flock = some t then none else s.flock) = some u
    rw [hf, if_neg fun h => hu (Option.some.inj h)]
  refine ⟨⟨hinv.socket_lt, hinv.listener_lt, fun i u hl hlinux => ?_, hinv.listener_bound, hinv.bound_lt,
    hinv.bound_unique, fun u ha hu => ?_⟩, fun u hu =>
    ⟨fun _ h => h, le_refl _, rfl, rfl, rfl, fun h _ => hother u hu h, fun h _ => h, fun _ h _ => ⟨h.1, h.2⟩,
      fun h => h, fun _ _ h => h⟩⟩
  · refine hother u ?_ (hinv.listener_locked i u hl hlinux)
    rintro rfl
    exact hquiet i hl
  · have hut : u ≠ t := by
      rintro rfl
      exact absurd (hidle.symm.trans hu) Bool.false_ne_true
    exact (hinv.holds u ha hu).mono (fun h => h) (hother u hut) fun _ h => ⟨h.1, h.2⟩

/-- Call `t` gets the free pipe. -/
theorem guarantee_pipe {t : CallId} {s : LeaseState} (hinv : Inv calls s) (hfree : s.pipe = none) :
    (discipline calls).Guarantee t s { s with pipe := some t } := by
  have hnone : ∀ u, s.pipe ≠ some u := fun u hu => by
    rw [hfree] at hu
    cases hu
  refine ⟨⟨hinv.socket_lt, hinv.listener_lt, hinv.listener_locked, hinv.listener_bound, hinv.bound_lt,
    hinv.bound_unique, fun u ha hu => ?_⟩, fun u _ =>
    ⟨fun _ h => h, le_refl _, rfl, rfl, rfl, fun h _ => h, fun h _ => absurd h (hnone u), fun _ h _ => ⟨h.1, h.2⟩,
      fun h => h, fun _ _ h => h⟩⟩
  exact (hinv.holds u ha hu).mono (fun h => absurd h (hnone u)) (fun h => h) fun _ h => ⟨h.1, h.2⟩

/-! ### Sockets -/

/-- Call `t` binds the free path and listens there; on Linux it has the flock. -/
theorem guarantee_bind {t : CallId} {s : LeaseState} {p : SocketPath} (hinv : Inv calls s)
    (hfree : s.socket p = none) (hquiet : Quiet t s) (hlock : calls.platform = .linux → s.flock = some t) :
    (discipline calls).Guarantee t s (s.bind t p) := by
  have hold : ∀ i, i < s.nextInode → (s.bind t p).listener i = s.listener i := fun i hi => if_neg hi.ne
  have hplace : ∀ u i, InPlace calls u i s → InPlace calls u i (s.bind t p) := by
    intro u i hi
    refine ⟨(hold i (hinv.listener_lt i u hi.listener)).trans hi.listener, ?_⟩
    have hne : calls.socketPath u ≠ p := by
      intro heq
      have hpath := hi.path
      rw [heq, hfree] at hpath
      cases hpath
    exact (if_neg hne).trans hi.path
  have hbound : ∀ u i, (s.bind t p).bound u = some i → i = s.nextInode ∧ u = t ∨ s.bound u = some i := by
    intro u i hb
    replace hb : (if u = t then some s.nextInode else s.bound u) = some i := hb
    split at hb
    · next hu => exact .inl ⟨(Option.some.inj hb).symm, hu⟩
    · exact .inr hb
  refine ⟨⟨fun q i hi => ?_, fun i u hl => ?_, fun i u hl hlinux => ?_, fun i u hl => ?_, fun u i hb => ?_,
    fun u v i hu hv => ?_, fun u ha hu => ?_⟩, fun u hu => ⟨fun _ h => h, Nat.le_succ _, rfl, if_neg hu, rfl, fun h _ => h, fun h _ => h, fun i h _ => hplace u i h,
      fun hq i hl => ?_, fun i hi hl => (hold i hi).trans hl⟩⟩
  · replace hi : (if q = p then some s.nextInode else s.socket q) = some i := hi
    by_cases hq : q = p
    · rw [if_pos hq] at hi
      cases hi
      exact Nat.lt_succ_self _
    · rw [if_neg hq] at hi
      exact Nat.lt_succ_of_lt (hinv.socket_lt q i hi)
  · by_cases hi : i = s.nextInode
    · rw [hi]
      exact Nat.lt_succ_self _
    · exact Nat.lt_succ_of_lt (hinv.listener_lt i u ((if_neg hi).symm.trans hl))
  · by_cases hi : i = s.nextInode
    · have hut : some t = some u := (if_pos hi).symm.trans hl
      cases hut
      exact hlock hlinux
    · exact hinv.listener_locked i u ((if_neg hi).symm.trans hl) hlinux
  · by_cases hi : i = s.nextInode
    · have hut : some t = some u := (if_pos hi).symm.trans hl
      cases hut
      rw [hi]
      exact if_pos rfl
    · have hl' : s.listener i = some u := (if_neg hi).symm.trans hl
      have hut : u ≠ t := by
        rintro rfl
        exact hquiet i hl'
      exact (if_neg hut).trans (hinv.listener_bound i u hl')
  · rcases hbound u i hb with ⟨rfl, -⟩ | hold
    · exact Nat.lt_succ_self _
    · exact Nat.lt_succ_of_lt (hinv.bound_lt u i hold)
  · rcases hbound u i hu with ⟨hi, hut⟩ | hu
    · rcases hbound v i hv with ⟨-, hvt⟩ | hv
      · rw [hut, hvt]
      · exact absurd (hinv.bound_lt v i hv) (by rw [hi]; exact lt_irrefl _)
    · rcases hbound v i hv with ⟨hi, -⟩ | hv
      · exact absurd (hinv.bound_lt u i hu) (by rw [hi]; exact lt_irrefl _)
      · exact hinv.bound_unique u v i hu hv
  · exact (hinv.holds u ha hu).mono (fun h => h) (fun h => h) (hplace u)
  · by_cases hi : i = s.nextInode
    · exact hu (Option.some.inj ((if_pos hi).symm.trans hl)).symm
    · exact hq i ((if_neg hi).symm.trans hl)

/-- A path loses its socket, which is no other live call's. -/
theorem guarantee_unlink {t : CallId} {s : LeaseState} {p : SocketPath} (hinv : Inv calls s) (hidle : s.holding t =
    false) (hother : ∀ u i, u ≠ t → s.socket p = some i → s.listener i ≠ some u) : (discipline calls).Guarantee t s
    (s.unlink p) := by
  have hplace : ∀ u i, u ≠ t → InPlace calls u i s → InPlace calls u i (s.unlink p) := by
    intro u i hu hi
    refine ⟨hi.listener, ?_⟩
    have hne : calls.socketPath u ≠ p := fun heq => hother u i hu (heq ▸ hi.path) hi.listener
    exact (if_neg hne).trans hi.path
  refine ⟨⟨fun q i hi => ?_, hinv.listener_lt, hinv.listener_locked, hinv.listener_bound, hinv.bound_lt,
    hinv.bound_unique, fun u ha hu => ?_⟩, fun u hu =>
    ⟨fun _ h => h, le_refl _, rfl, rfl, rfl, fun h _ => h, fun h _ => h, fun i h _ => hplace u i hu h,
      fun h => h, fun _ _ h => h⟩⟩
  · replace hi : (if q = p then none else s.socket q) = some i := hi
    by_cases hq : q = p
    · rw [if_pos hq] at hi
      cases hi
    · rw [if_neg hq] at hi
      exact hinv.socket_lt q i hi
  · have hut : u ≠ t := by
      rintro rfl
      exact absurd (hidle.symm.trans hu) Bool.false_ne_true
    exact (hinv.holds u ha hu).mono (fun h => h) (fun h => h) fun i => hplace u i hut

/-- The server of call `t`, which does not hold the lock, stops. -/
theorem guarantee_stop {t : CallId} {s : LeaseState} (hinv : Inv calls s) (hidle : s.holding t = false) :
    (discipline calls).Guarantee t s (s.stop t) := by
  have hlistener : ∀ i u, (s.stop t).listener i = some u → s.listener i = some u := by
    intro i u hl
    replace hl : (if s.listener i = some t then none else s.listener i) = some u := hl
    split at hl
    · cases hl
    · exact hl
  have hkept : ∀ i u, u ≠ t → s.listener i = some u → (s.stop t).listener i = some u := by
    intro i u hu hl
    show (if s.listener i = some t then none else s.listener i) = some u
    rw [hl, if_neg fun h => hu (Option.some.inj h)]
  have hpipe : ∀ u, u ≠ t → s.pipe = some u → (s.stop t).pipe = some u := by
    intro u hu hp
    show (if s.pipe = some t then none else s.pipe) = some u
    rw [hp, if_neg fun h => hu (Option.some.inj h)]
  refine ⟨⟨hinv.socket_lt, fun i u hl => hinv.listener_lt i u (hlistener i u hl),
    fun i u hl => hinv.listener_locked i u (hlistener i u hl),
    fun i u hl => hinv.listener_bound i u (hlistener i u hl), hinv.bound_lt, hinv.bound_unique,
    fun u ha hu => ?_⟩, fun u hu =>
    ⟨fun _ h => h, le_refl _, rfl, rfl, rfl, fun h _ => h, fun h _ => hpipe u hu h,
      fun i h _ => ⟨hkept i u hu h.listener, h.path⟩, fun hq i hl => hq i (hlistener i u hl), fun i _ hl => ?_⟩⟩
  · have hut : u ≠ t := by
      rintro rfl
      exact absurd (hidle.symm.trans hu) Bool.false_ne_true
    exact (hinv.holds u ha hu).mono (hpipe u hut) (fun h => h) fun i h => ⟨hkept i u hut h.listener, h.path⟩
  · show (if s.listener i = some t then none else s.listener i) = none
    rw [hl, ite_self]

theorem quiet_stop (t : CallId) (s : LeaseState) : Quiet t (s.stop t) := by
  intro i hl
  replace hl : (if s.listener i = some t then none else s.listener i) = some t := hl
  split at hl
  · cases hl
  · next hne => exact hne hl

end RabiRoute.InstanceLock
