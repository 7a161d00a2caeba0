import RabiRoute.PlanStorage.LeaseDiscipline

/-!
# Snapshots, reclaims and the fence

What the helper functions of `lease.ts` do for the call that runs them: they read, they remove
files that nobody alive needs, and they take and give back the reclaim fence.  None of them moves
the lock.
-/

open Interleave Interleave.Program

namespace RabiRoute.Lease

variable {calls : Calls} {strict : Prop}

/-! ## The conditions on a run -/

/-- A reclaim removes only the fence that its last `stat` met, and only when that fence was not
then a live call's file still without its owner record; and a lock is renamed back only to a free
path. -/
def SafeReclaim (t : CallId) : Cmd → LeaseState → Prop
  | .unlink .fence, s => ∀ i, s.names .fence = some i →
      (s.file i).creator = t ∨ s.seen t = some ⟨i, false⟩
  | .rename (.stale _) .lock, s => s.names .lock = none
  | _, _ => True

/-- The file steps succeed, a releasing call finds the fence free, and its heartbeat is over. -/
def Undisturbed (thread : Thread) (c : Cmd) (ch : Choice) (s : LeaseState) : Prop :=
  match thread, c, ch with
  | .call _, .action, _ => True
  | .call t, .openExclusive .fence, ch => ch = .ok ∧ (s.releasing t = true → s.names .fence = none)
  | .call _, .awaitStatus _, _ => True
  | .call _, .kill _, _ => True
  | .call _, _, ch => ch = .ok
  | .heartbeat t, .futimes _ _, _ => s.releasing t = false
  | .heartbeat _, _, _ => True

def Admits (strict : Prop) (thread : Thread) (c : Cmd) (ch : Choice) (s : LeaseState) : Prop :=
  SafeReclaim thread.id c s ∧ (strict → Undisturbed thread c ch s)

abbrev triple (calls : Calls) (strict : Prop) (thread : Thread) {ε α : Type}
    (p : Program Cmd Cmd.Response ε α) (Q : α → LeaseState → Prop) (E : ε → LeaseState → Prop)
    (s : LeaseState) : Prop :=
  wp (machine calls) (Admits strict) (discipline calls strict) thread p Q E s

abbrev Later (calls : Calls) (strict : Prop) (t : CallId) (s s' : LeaseState) : Prop :=
  (discipline calls strict).Later (.call t) s s'

section Steps

variable {thread : Thread} {t : CallId} {s : LeaseState}

theorem wp_fileStep {c : Cmd} {Q : c.Val → LeaseState → Prop} {E : LeaseError → LeaseState → Prop}
    (h : ∀ ch r s', Admits strict thread c ch s → calls.alive s thread.id = true →
      execLive calls thread.id s c ch = some (r, s') →
        (discipline calls strict).Guarantee thread s s' ∧
          ∀ s'', (discipline calls strict).Later thread s' s'' →
            (∀ v, r = .ok v → Q v s'') ∧ (∀ e, r = .error e → E e s'')) :
    triple calls strict thread (sys c) Q E s := by
  refine wp_performOrThrow fun ch r s' hok hexec => ?_
  have halive : calls.alive s thread.id = true := by
    by_contra hdead
    simp [machine, exec, hdead] at hexec
  exact h ch r s' hok halive (by simpa [machine, exec, halive] using hexec)

/-- A step of the call itself. -/
theorem wp_callStep {c : Cmd} {Q : c.Val → LeaseState → Prop} {E : LeaseError → LeaseState → Prop}
    (h : ∀ ch r s', Admits strict (.call t) c ch s → calls.alive s t = true →
      execLive calls t s c ch = some (r, s') →
        (discipline calls strict).Guarantee (.call t) s s' ∧
          ∀ s'', Later calls strict t s' s'' →
            (∀ v, r = .ok v → Q v s'') ∧ (∀ e, r = .error e → E e s'')) :
    triple calls strict (.call t) (sys c) Q E s :=
  wp_fileStep h

/-- The commands that change nothing. -/
def Quiet : Cmd → Prop
  | .dateNow | .readFile _ | .exists _ | .readdir | .kill _ | .wait | .openLock | .fstat _
  | .readDescriptor _ | .awaitStart | .awaitStatus _ | .loadStatus | .loadFailure | .loadStop
  | .isActive | .action | .close _ => True
  | .stat name => name ≠ .fence
  | _ => False

theorem execLive_quiet {c : Cmd} {ch : Choice} {r : c.Response} {s' : LeaseState} (hc : Quiet c)
    (h : execLive calls t s c ch = some (r, s')) : s' = s := by
  cases c <;> simp only [Quiet] at hc <;> cases ch <;> simp only [execLive] at h <;>
    (try split at h) <;> simp_all

theorem wp_quietStep {c : Cmd} {Q : c.Val → LeaseState → Prop}
    {E : LeaseError → LeaseState → Prop} (hc : Quiet c) (hinv : Inv calls s)
    (h : ∀ ch r s', Admits strict thread c ch s → calls.alive s thread.id = true →
      execLive calls thread.id s c ch = some (r, s) →
        (discipline calls strict).Later thread s s' →
          (∀ v, r = .ok v → Q v s') ∧ (∀ e, r = .error e → E e s')) :
    triple calls strict thread (sys c) Q E s := by
  refine wp_fileStep fun ch r s' hok ha hexec => ?_
  obtain rfl := execLive_quiet hc hexec
  exact ⟨guarantee_self hinv, fun s'' hl => h ch r s'' hok ha hexec hl⟩

end Steps

/-! ## What the helpers keep -/

/-- The lock, the files and the marks of call `t` are where they were. -/
structure Kept (calls : Calls) (strict : Prop) (t : CallId) (s s' : LeaseState) : Prop where
  base : Base s s'
  holding : s'.holding t = s.holding t
  releasing : s'.releasing t = s.releasing t
  unused : ∀ n, n < s.nextUuid → s.drawnBy n = t → s'.used (.stale n) = s.used (.stale n)
  lock : calls.alive s' t = true → ∀ i, s.names .lock = some i → (s.file i).creator = t →
    s'.names .lock = some i ∧ (s'.file i).creator = t
  notCarried : calls.alive s' t = true → NotCarried t s → NotCarried t s'
  frozen : strict → s.releasing t = true → ∀ i r, i < s.nextInode → (s.file i).creator = t →
    (s.file i).content = .record r → s'.file i = s.file i

theorem Kept.of_rely {t : CallId} {s s' : LeaseState} (h : Rely calls strict (.call t) s s') :
    Kept calls strict t s s' :=
  have own := h.own t rfl
  ⟨h.base, own.holding, own.releasing, fun n => own.unused (.stale n) n rfl, own.lock, own.notCarried, own.frozen⟩

theorem Kept.trans {t : CallId} {s s' s'' : LeaseState} (h : Kept calls strict t s s')
    (h' : Kept calls strict t s' s'') : Kept calls strict t s s'' where
  base := h.base.trans h'.base
  holding := h'.holding.trans h.holding
  releasing := h'.releasing.trans h.releasing
  unused n hlt hd :=
    (h'.unused n (hlt.trans_le h.base.uuid_le) ((h.base.drawn n hlt).trans hd)).trans
      (h.unused n hlt hd)
  lock ha i hi hc := by
    obtain ⟨hi', hc'⟩ := h.lock (h'.base.alive ha) i hi hc
    exact h'.lock ha i hi' hc'
  notCarried ha hn := h'.notCarried ha (h.notCarried (h'.base.alive ha) hn)
  frozen hs hr i r hlt hc hcontent := by
    have hfirst := h.frozen hs hr i r hlt hc hcontent
    have hsecond := h'.frozen hs (h.releasing.trans hr) i r (hlt.trans_le h.base.next_le)
      (hfirst ▸ hc) (hfirst ▸ hcontent)
    exact hsecond.trans hfirst

/-- A state that call `t` and the others may leave when `t` runs helpers from `s`. -/
structure Steady (calls : Calls) (strict : Prop) (t : CallId) (s s' : LeaseState) : Prop where
  inv : Inv calls s'
  kept : Kept calls strict t s s'

theorem Steady.of_later {t : CallId} {s s' : LeaseState} (h : Later calls strict t s s') : Steady calls strict t s s' :=
  ⟨h.inv, .of_rely h.rely⟩

theorem Steady.self {t : CallId} {s : LeaseState} (hinv : Inv calls s) : Steady calls strict t s s :=
  .of_later (.self hinv)

theorem Steady.trans {t : CallId} {s s' s'' : LeaseState} (h : Steady calls strict t s s')
    (h' : Steady calls strict t s' s'') : Steady calls strict t s s'' :=
  ⟨h'.inv, h.kept.trans h'.kept⟩

theorem Steady.later {t : CallId} {s s' s'' : LeaseState} (h : Steady calls strict t s s')
    (h' : Later calls strict t s' s'') : Steady calls strict t s s'' :=
  h.trans (.of_later h')

theorem base_of_guarantee {t : CallId} {s s' : LeaseState}
    (h : (discipline calls strict).Guarantee (.call t) s s') : Base s s' :=
  (h.others (.heartbeat t) (by simp)).base

/-- A step of the call itself that leaves the lock path and its own finished files alone. -/
theorem Steady.step {t : CallId} {s s' s'' : LeaseState} (hg : (discipline calls strict).Guarantee (.call t) s s') (hl :
    Later calls strict t s' s'') (hlock : s'.names .lock = s.names .lock) (hholding : s'.holding t = s.holding t)
    (hreleasing : s'.releasing t = s.releasing t) (hused : ∀ n, s'.used (.stale n) = s.used (.stale n)) (hfile : ∀ i r,
    i < s.nextInode → (s.file i).content = .record r → s'.file i = s.file i) (hinv : Inv calls s) : Steady calls strict
    t s s'' := by
  have hbase := base_of_guarantee hg
  refine Steady.trans ⟨hg.inv, hbase, hholding, hreleasing, fun n _ _ => hused n,
    ?_, ?_, fun _ _ i r hlt _ hr => hfile i r hlt hr⟩ (.of_later hl)
  · intro _ i hi hc
    exact ⟨hlock.trans hi, (hbase.creator i (hinv.names_lt _ i hi)).trans hc⟩
  · intro _ hn i hi
    have hi' := hlock.symm.trans hi
    rw [hbase.creator i (hinv.names_lt _ i hi')]
    exact hn i hi'

/-- Call `t` does not hold the lock, and in a strict run its token is not at the lock path. -/
structure Idle (calls : Calls) (strict : Prop) (t : CallId) (s : LeaseState) : Prop where
  inv : Inv calls s
  holding : s.holding t = false
  notCarried : strict → calls.alive s t = true → NotCarried t s

theorem Idle.steady {t : CallId} {s s' : LeaseState} (h : Idle calls strict t s)
    (hs : Steady calls strict t s s') : Idle calls strict t s' :=
  ⟨hs.inv, hs.kept.holding.trans h.holding, fun hst ha =>
    hs.kept.notCarried ha (h.notCarried hst (hs.kept.base.alive ha))⟩

theorem Idle.later {t : CallId} {s s' : LeaseState} (h : Idle calls strict t s)
    (hl : Later calls strict t s s') : Idle calls strict t s' :=
  h.steady (.of_later hl)

/-- Call `t`, while its process lives, has its own file at the lock path. -/
structure Owner (calls : Calls) (t : CallId) (s : LeaseState) : Prop where
  inv : Inv calls s
  mine : calls.alive s t = true → LockMine t s

theorem Owner.steady {t : CallId} {s s' : LeaseState} (h : Owner calls t s)
    (hs : Steady calls strict t s s') : Owner calls t s' := by
  refine ⟨hs.inv, fun ha => ?_⟩
  obtain ⟨i, hi, hc⟩ := h.mine (hs.kept.base.alive ha)
  obtain ⟨hi', hc'⟩ := hs.kept.lock ha i hi hc
  exact ⟨i, hi', hc'⟩

theorem Owner.later {t : CallId} {s s' : LeaseState} (h : Owner calls t s)
    (hl : Later calls strict t s s') : Owner calls t s' :=
  h.steady (.of_later hl)

/-- The candidate of call `t` names its lease file, or nothing any more. -/
structure CandidateFile (calls : Calls) (t : CallId) (candidate : Nat) (s : LeaseState) : Prop where
  inv : Inv calls s
  used : s.used (.candidate candidate) = true
  file : ∃ i, i < s.nextInode ∧ (s.file i).creator = t ∧ (s.file i).IsLease calls ∧
    ∀ j, s.names (.candidate candidate) = some j → j = i

theorem CandidateFile.steady {t : CallId} {candidate : Nat} {s s' : LeaseState} (h : CandidateFile calls t candidate s)
    (hs : Steady calls strict t s s') : CandidateFile calls t candidate s' := by
  obtain ⟨i, hlt, hc, ⟨r, hr, howner⟩, hnames⟩ := h.file
  have hbase := hs.kept.base
  have hcreator := hbase.creator i hlt
  refine ⟨hs.inv, hbase.used _ h.used, i, hlt.trans_le hbase.next_le, hcreator.trans hc,
    ⟨r, hbase.record h.inv hlt hr, by rw [hcreator]; exact howner⟩, fun j hj => ?_⟩
  exact hnames j (hbase.rebind (.candidate candidate) candidate j rfl h.used hj)

/-! ## Reading -/

section Reading

variable {t : CallId} {s : LeaseState}

theorem execLive_stat {name : Name} {ch : Choice} {v : Stat} {s' : LeaseState}
    (hexec : execLive calls t s (.stat name) ch = some (.ok v, s')) :
    ∃ i, s.names name = some i ∧ v = (s.file i).stat i ∧
      s' = if name = .fence then s.setSeen t (some ⟨i, calls.unfinished s i⟩) else s := by
  cases ch <;> cases hname : s.names name <;>
    simp only [execLive, hname, Option.some.injEq, Prod.mk.injEq, reduceCtorEq, false_and] at hexec <;>
    obtain ⟨hv, hs'⟩ := hexec <;> cases hv <;> exact ⟨_, rfl, rfl, hs'.symm⟩

theorem execLive_readFile {name : Name} {ch : Choice} {v : LeaseContent} {s' : LeaseState} (hexec : execLive calls t s
    (.readFile name) ch = some (.ok v, s')) : ∃ i, s.names name = some i ∧ v = (s.file i).content := by
  cases ch <;> cases hname : s.names name <;>
    simp only [execLive, hname, Option.some.injEq, Prod.mk.injEq, reduceCtorEq, false_and] at hexec <;>
    obtain ⟨hv, -⟩ := hexec <;> cases hv <;> exact ⟨_, rfl, rfl⟩

theorem stat_error {name : Name} {ch : Choice} {e : LeaseError} {s' : LeaseState} (hch : ch = .ok)
    (hexec : execLive calls t s (.stat name) ch = some (.error e, s')) : e = .enoent := by
  subst hch
  cases hname : s.names name <;> simp [execLive, hname] at hexec
  exact hexec.1.symm

theorem readFile_error {name : Name} {ch : Choice} {e : LeaseError} {s' : LeaseState} (hch : ch = .ok) (hexec : execLive
    calls t s (.readFile name) ch = some (.error e, s')) : e = .enoent := by
  subst hch
  cases hname : s.names name <;> simp [execLive, hname] at hexec
  exact hexec.1.symm

/-- How a snapshot came about: the file was statted, what the name named then was read, and the
same file was statted again with the same result. -/
structure Observed (calls : Calls) (strict : Prop) (t : CallId) (name : Name) (s s' : LeaseState)
    (snapshot : LeaseFileSnapshot) : Prop where
  first : s.names name = some snapshot.stat.ino
  firstStat : (s.file snapshot.stat.ino).stat snapshot.stat.ino = snapshot.stat
  read : ∃ s₁ s₂ i, Steady calls strict t s s₁ ∧ Later calls strict t s₁ s₂ ∧
    s₁.names name = some i ∧ (s₁.file i).content = snapshot.raw ∧
    s₂.names name = some snapshot.stat.ino ∧
    (s₂.file snapshot.stat.ino).stat snapshot.stat.ino = snapshot.stat ∧
    Steady calls strict t s₂ s' ∧
    (∀ i, calls.alive s' t = true → FenceMine t i s₂ → FenceMine t i s') ∧
    (name ≠ .fence → Later calls strict t s s₁ ∧ Later calls strict t s₂ s') ∧
    (name = .fence → s'.seen t = some ⟨snapshot.stat.ino, calls.unfinished s₂ snapshot.stat.ino⟩)

theorem guarantee_stat {name : Name} {ch : Choice} {r : (Cmd.stat name).Response}
    {s' : LeaseState} (hinv : Inv calls s)
    (hexec : execLive calls t s (.stat name) ch = some (r, s')) :
    (discipline calls strict).Guarantee (.call t) s s' ∧
      ∀ s'', Later calls strict t s' s'' → Steady calls strict t s s'' := by
  have hcases : s' = s ∨ ∃ g, s' = s.setSeen t g := by
    cases ch <;> cases hname : s.names name <;> simp only [execLive, hname, Option.some.injEq,
      Prod.mk.injEq] at hexec <;> obtain ⟨-, rfl⟩ := hexec <;> (try split) <;> simp
  rcases hcases with rfl | ⟨g, rfl⟩
  · exact ⟨guarantee_self hinv, fun _ => .of_later⟩
  · have hg : (discipline calls strict).Guarantee (.call t) s (s.setSeen t g) :=
      guarantee_frame hinv ⟨fun _ h => h, rfl, rfl, rfl, rfl, rfl, rfl, fun _ => rfl, fun _ => rfl⟩
        rfl (fun _ _ => rfl) (fun u hu => by
          have : u ≠ t := fun h => hu (by rw [h])
          simp [LeaseState.setSeen, this]) (fun _ _ => rfl) fun _ h => .inl h
    exact ⟨hg, fun _ hl => .step hg hl rfl rfl rfl (fun _ => rfl) (fun _ _ _ _ => rfl) hinv⟩

theorem wp_readStableSnapshot {name : Name} {Q : Option LeaseFileSnapshot → LeaseState → Prop}
    {E : LeaseError → LeaseState → Prop} (hinv : Inv calls s)
    (hQ : ∀ snapshot s', Steady calls strict t s s' →
      (name ≠ .fence → Later calls strict t s s') →
      (∀ v, snapshot = some v → Observed calls strict t name s s' v) → Q snapshot s')
    (hE : ∀ e s', Steady calls strict t s s' → (name ≠ .fence → Later calls strict t s s') →
      ¬ strict → E e s') :
    triple calls strict (.call t) (readStableSnapshot name) Q E s := by
  have hfail : ∀ (e : LeaseError) s', Steady calls strict t s s' →
      (name ≠ .fence → Later calls strict t s s') → (strict → e = .enoent) →
      triple calls strict (.call t)
        (if e = LeaseError.enoent then (pure none : Prog (Option LeaseFileSnapshot)) else raise e)
        Q E s' := by
    intro e s' hs hl hst
    split
    case isTrue => exact hQ none s' hs hl fun _ h => by cases h
    case isFalse he => exact hE e s' hs hl fun h => he (hst h)
  refine wp_attempt (wp_bind (wp_fileStep fun ch r s₁' hok _ hexec => ?_))
  refine ⟨(guarantee_stat hinv hexec).1, fun s₁ hl₁ => ?_⟩
  have hst₁ : Steady calls strict t s s₁ := (guarantee_stat hinv hexec).2 s₁ hl₁
  have hsame₁ : name ≠ .fence → Later calls strict t s s₁ := fun hne => by
    obtain rfl := execLive_quiet (c := .stat name) hne hexec
    exact hl₁
  refine ⟨fun before hr => ?_, fun e hr =>
    hfail e s₁ hst₁ hsame₁ fun hst => stat_error (hok.2 hst) (hr ▸ hexec)⟩
  subst hr
  obtain ⟨i, hi, rfl, -⟩ := execLive_stat hexec
  refine wp_bind (wp_quietStep (c := .readFile name) trivial hl₁.inv
    fun ch₂ r₂ s₂ hok₂ _ hexec₂ hl₂ => ?_)
  refine ⟨fun raw hr => ?_, fun e hr => hfail e s₂ (hst₁.later hl₂)
    (fun hne => (hsame₁ hne).trans hl₂) fun hst => readFile_error (hok₂.2 hst) (hr ▸ hexec₂)⟩
  subst hr
  obtain ⟨j, hj, rfl⟩ := execLive_readFile hexec₂
  refine wp_bind (wp_fileStep fun ch₃ r₃ s₃' hok₃ _ hexec₃ => ?_)
  refine ⟨(guarantee_stat hl₂.inv hexec₃).1, fun s₃ hl₃ => ?_⟩
  have hst₃ : Steady calls strict t s₂ s₃ := (guarantee_stat hl₂.inv hexec₃).2 s₃ hl₃
  have hsame₃ : name ≠ .fence → Later calls strict t s₂ s₃ := fun hne => by
    obtain rfl := execLive_quiet (c := .stat name) hne hexec₃
    exact hl₃
  have hst := (hst₁.later hl₂).trans hst₃
  have hsame : name ≠ .fence → Later calls strict t s s₃ := fun hne =>
    ((hsame₁ hne).trans hl₂).trans (hsame₃ hne)
  refine ⟨fun after hr => ?_, fun e hr =>
    hfail e s₃ hst hsame fun h => stat_error (hok₃.2 h) (hr ▸ hexec₃)⟩
  subst hr
  obtain ⟨k, hk, rfl, hs₃'⟩ := execLive_stat hexec₃
  refine hQ _ s₃ hst hsame fun v hv => ?_
  split at hv
  case isFalse => cases hv
  case isTrue hstat =>
    cases hv
    obtain rfl : i = k := congrArg Stat.ino hstat
    refine ⟨hi, hstat, s₁, s₂, j, hst₁, hl₂, hj, rfl, hk, rfl, hst₃, fun i' ha hf => ?_,
      fun hne => ⟨hsame₁ hne, hsame₃ hne⟩, ?_⟩
    · refine (hl₃.rely.own t rfl).fence ha i' ?_
      rw [hs₃']
      split
      · exact ⟨hf.name, hf.creator, hf.content⟩
      · exact hf
    rintro rfl
    rw [(hl₃.rely.own t rfl).seen, hs₃']
    simp [LeaseState.setSeen, LeaseFile.stat, Thread.id]

/-- A read of the names that finds the same frozen file all along succeeds. -/
theorem wp_readStableSnapshot_frozen {name : Name} {i : Nat} {f : LeaseFile}
    {Q : Option LeaseFileSnapshot → LeaseState → Prop} {E : LeaseError → LeaseState → Prop}
    (hstrict : strict) (hname : name ≠ .fence) (hinv : Inv calls s)
    (hfix : ∀ s', Later calls strict t s s' → calls.alive s' t = true →
      s'.names name = some i ∧ s'.file i = f)
    (hQ : ∀ s', Later calls strict t s s' → Q (some ⟨f.content, f.stat i⟩) s') :
    triple calls strict (.call t) (readStableSnapshot name) Q E s := by
  have hstat : ∀ {s₁ ch} {r : (Cmd.stat name).Response}, Later calls strict t s s₁ →
      calls.alive s₁ t = true → Admits strict (.call t) (.stat name) ch s₁ →
      execLive calls t s₁ (.stat name) ch = some (r, s₁) → r = .ok (f.stat i) := by
    intro s₁ ch r hl ha hok hexec
    obtain ⟨hn, hf⟩ := hfix s₁ hl ha
    obtain rfl : ch = .ok := hok.2 hstrict
    simp only [execLive, hn, Option.some.injEq, Prod.mk.injEq] at hexec
    rw [← hexec.1, hf]
  refine wp_attempt (wp_bind (wp_quietStep (c := .stat name) hname hinv
    fun ch r s₁ hok ha hexec hl₁ => ?_))
  obtain rfl := hstat (.self hinv) ha hok hexec
  refine ⟨fun before hr => ?_, fun e hr => by cases hr⟩
  cases hr
  refine wp_bind (wp_quietStep (c := .readFile name) trivial hl₁.inv
    fun ch₂ r₂ s₂ hok₂ ha₂ hexec₂ hl₂ => ?_)
  obtain rfl : r₂ = .ok f.content := by
    obtain ⟨hn, hf⟩ := hfix s₁ hl₁ ha₂
    obtain rfl : ch₂ = .ok := hok₂.2 hstrict
    simp only [execLive, hn, Option.some.injEq, Prod.mk.injEq] at hexec₂
    rw [← hexec₂.1, hf]
  refine ⟨fun raw hr => ?_, fun e hr => by cases hr⟩
  cases hr
  refine wp_bind (wp_quietStep (c := .stat name) hname hl₂.inv
    fun ch₃ r₃ s₃ hok₃ ha₃ hexec₃ hl₃ => ?_)
  obtain rfl := hstat (hl₁.trans hl₂) ha₃ hok₃ hexec₃
  refine ⟨fun after hr => ?_, fun e hr => by cases hr⟩
  cases hr
  show Q (if f.stat i = f.stat i then some ⟨f.content, f.stat i⟩ else none) s₃
  rw [if_pos rfl]
  exact hQ s₃ ((hl₁.trans hl₂).trans hl₃)

/-! ## Judging a file -/

theorem wp_isRecoverableSnapshot {snapshot : LeaseFileSnapshot} {now : Nat} {v : CallId}
    {Q : Bool → LeaseState → Prop} {E : LeaseError → LeaseState → Prop} (hinv : Inv calls s)
    (hwritten : ∀ r, snapshot.raw = .record r → Written calls v r)
    (hQ : ∀ recoverable s', Later calls strict t s s' →
      (recoverable = true → (∃ r, snapshot.raw = .record r) ∧ s.dead (calls.pid v) = true) →
      Q recoverable s') :
    triple calls strict (.call t) (isRecoverableSnapshot calls.hostname snapshot now) Q E s := by
  unfold isRecoverableSnapshot
  cases hraw : snapshot.raw with
  | unwritten => exact hQ false s (.self hinv) fun h => by cases h
  | torn bytes => exact hQ false s (.self hinv) fun h => by cases h
  | record r =>
    obtain ⟨hhost, hpid, token, htoken, -⟩ := hwritten r hraw
    have hsame : sameHost calls.hostname r = true := by simp [sameHost, hhost]
    simp only [parseLeaseRecord, htoken, hhost, Option.isNone_some, Bool.or_self,
      Bool.false_eq_true, if_false, sameHostProcessAlive, hsame, if_true, hpid,
      (calls.pid_pos v).ne']
    refine wp_bind (wp_quietStep (c := .kill (calls.pid v)) trivial hinv
      fun ch r' s' _ _ hexec hl => ⟨fun answer hr => ?_, fun e hr => ?_⟩)
    · subst hr
      cases answer with
      | none => exact hQ _ s' hl fun h => by simp [expiredElsewhere, hsame] at h
      | some running =>
        refine hQ _ s' hl fun h => ⟨⟨r, hraw⟩, ?_⟩
        cases ch <;> simp only [execLive, Option.some.injEq, Prod.mk.injEq, Except.ok.injEq,
          and_true, reduceCtorEq] at hexec <;> simp_all
    · subst hr
      cases ch <;> simp [execLive] at hexec

theorem wp_isRecoverableUnpublishedSnapshot {snapshot : LeaseFileSnapshot} {now : Nat}
    {v : CallId} {Q : Bool → LeaseState → Prop} {E : LeaseError → LeaseState → Prop}
    (hinv : Inv calls s) (hwritten : ∀ r, snapshot.raw = .record r → Written calls v r)
    (hQ : ∀ recoverable s', Later calls strict t s s' →
      (recoverable = true → ∀ r, snapshot.raw = .record r → s.dead (calls.pid v) = true) →
      Q recoverable s') :
    triple calls strict (.call t) (isRecoverableUnpublishedSnapshot calls.hostname snapshot now)
      Q E s := by
  unfold isRecoverableUnpublishedSnapshot
  split
  · exact wp_isRecoverableSnapshot hinv hwritten fun recoverable s' hl h =>
      hQ recoverable s' hl fun hr _ _ => (h hr).2
  · rename_i hparse
    refine hQ _ s (.self hinv) fun _ r hr => ?_
    simp [parseLeaseRecord, hr] at hparse

/-- What a call knows of the fence after a snapshot of it. -/
structure FenceSeen (calls : Calls) (t : CallId) (snapshot : LeaseFileSnapshot) (s : LeaseState) :
    Prop where
  inv : Inv calls s
  lt : snapshot.stat.ino < s.nextInode
  record : ∀ r, snapshot.raw = .record r → (s.file snapshot.stat.ino).content = .record r
  seen : ∃ b, s.seen t = some ⟨snapshot.stat.ino, b⟩ ∧ (b = false → ∀ w, calls.alive s w = true →
    FenceMine w snapshot.stat.ino s → ∃ r, snapshot.raw = .record r)

theorem textLength_pos (r : LeaseRecord) : 0 < r.textLength := by
  unfold LeaseRecord.textLength
  omega

theorem Observed.fenceSeen {s' : LeaseState} {snapshot : LeaseFileSnapshot} (hinv : Inv calls s)
    (h : Observed calls strict t .fence s s' snapshot) : FenceSeen calls t snapshot s' := by
  obtain ⟨s₁, s₂, i, hs₁, hl₂, hi, hraw, hname, hstat, hs', -, -, hseen⟩ := h.read
  have hlt : snapshot.stat.ino < s.nextInode := hinv.names_lt _ _ h.first
  have hlt₁ := hlt.trans_le hs₁.kept.base.next_le
  have hlt₂ := hlt₁.trans_le hl₂.rely.base.next_le
  -- a fence never comes back, so what was read is the file that was statted
  obtain rfl : i = snapshot.stat.ino :=
    Option.some.inj (hi.symm.trans (hl₂.rely.base.fence_old _ hname hlt₁))
  refine ⟨hs'.inv, hlt₂.trans_le hs'.kept.base.next_le, fun r hr => ?_, _, hseen rfl, ?_⟩
  · exact hs'.kept.base.record hl₂.inv hlt₂ (hl₂.rely.base.record hs₁.inv hlt₁ (hraw.trans hr))
  · intro hfinished w ha hf
    have hf₂ := hs'.kept.base.fence_back hl₂.inv hlt₂ hf
    have ha₂ := hs'.kept.base.alive ha
    rcases hf₂.content with hinit | ⟨r, hr⟩
    · simp [Calls.unfinished, hf₂.creator, ha₂, hinit] at hfinished
    · -- the record was there at the read already, else the sizes of the two stats would differ
      by_contra hnone
      have hsize : 0 < snapshot.stat.size := by
        rw [← hstat]
        simpa [LeaseFile.stat, LeaseContent.size, hr] using textLength_pos r
      have hunwritten : ∀ {s₀ : LeaseState} {u}, Inv calls s₀ →
          s₀.initialising u = some snapshot.stat.ino →
          (s₀.file snapshot.stat.ino).content = .unwritten := fun hinv₀ hu => (hinv₀.init _ _ hu).2.1
      have hread : (s₁.file snapshot.stat.ino).content = .unwritten := by
        rcases hl₂.rely.base.content _ hlt₁ with hsame | ⟨u, hu⟩
        · exact absurd ⟨r, by rw [← hraw, ← hsame, hr]⟩ hnone
        · exact hunwritten hs₁.inv hu
      have hfirst : (s.file snapshot.stat.ino).content = .unwritten := by
        rcases hs₁.kept.base.content _ hlt with hsame | ⟨u, hu⟩
        · rw [← hsame, hread]
        · exact hunwritten hinv hu
      rw [← h.firstStat] at hsize
      simp [LeaseFile.stat, LeaseContent.size, hfirst] at hsize

/-- What a call knows of a candidate or a stale name after a snapshot of it. -/
structure AsideSeen (calls : Calls) (name : Name) (snapshot : LeaseFileSnapshot) (s : LeaseState) :
    Prop where
  inv : Inv calls s
  lt : snapshot.stat.ino < s.nextInode
  used : s.used name = true
  names : ∀ j, s.names name = some j → j = snapshot.stat.ino
  record : ∀ r, snapshot.raw = .record r → (s.file snapshot.stat.ino).content = .record r
  stale : ∀ n, name = .stale n → ∃ r, snapshot.raw = .record r

theorem Observed.asideSeen {s' : LeaseState} {name : Name} {n : Nat} {snapshot : LeaseFileSnapshot}
    (hinv : Inv calls s) (hname : name.uuid = some n)
    (h : Observed calls strict t name s s' snapshot) : AsideSeen calls name snapshot s' := by
  obtain ⟨s₁, s₂, i, hs₁, hl₂, hi, hraw, hname₂, -, hs', -, -, -⟩ := h.read
  have hlt : snapshot.stat.ino < s.nextInode := hinv.names_lt _ _ h.first
  have hlt₁ := hlt.trans_le hs₁.kept.base.next_le
  have hlt₂ := hlt₁.trans_le hl₂.rely.base.next_le
  have hused := hinv.used _ _ h.first
  have hused₁ := hs₁.kept.base.used _ hused
  have hused₂ := hl₂.rely.base.used _ hused₁
  obtain rfl : i = snapshot.stat.ino :=
    Option.some.inj (hi.symm.trans (hl₂.rely.base.rebind name n _ hname hused₁ hname₂))
  refine ⟨hs'.inv, hlt₂.trans_le hs'.kept.base.next_le, hs'.kept.base.used _ hused₂,
    fun j hj => ?_, fun r hr => ?_, ?_⟩
  · exact Option.some.inj
      ((hs'.kept.base.rebind name n j hname hused₂ hj).symm.trans hname₂)
  · exact hs'.kept.base.record hl₂.inv hlt₂ (hl₂.rely.base.record hs₁.inv hlt₁ (hraw.trans hr))
  · rintro m rfl
    obtain ⟨r, hr, -⟩ := hs₁.inv.stale_lease m _ hi
    exact ⟨r, hraw.symm.trans hr⟩

end Reading

/-! ## Reclaiming -/

section Reclaiming

variable {t : CallId} {s : LeaseState}

theorem execLive_unlink {name : Name} {ch : Choice} {r : (Cmd.unlink name).Response}
    {s' : LeaseState} (hexec : execLive calls t s (.unlink name) ch = some (r, s')) :
    (s' = s ∧ ∃ e, r = .error e ∧ (ch = .ok → e = .enoent ∧ s.names name = none)) ∨
      (∃ i, s.names name = some i) ∧ s' = s.setName name none ∧ r = .ok () := by
  cases ch <;> cases hname : s.names name <;>
    simp only [execLive, hname, Option.some.injEq, Prod.mk.injEq] at hexec <;>
    obtain ⟨rfl, rfl⟩ := hexec <;> simp

/-- Removing the fence or a name set aside, when no live call needs it. -/
theorem wp_unlinkAside {name : Name} {Q : Unit → LeaseState → Prop}
    {E : LeaseError → LeaseState → Prop} (hinv : Inv calls s) (hlock : name ≠ .lock)
    (hg : calls.alive s t = true → SafeReclaim t (.unlink name) s →
      (discipline calls strict).Guarantee (.call t) s (s.setName name none))
    (hQ : ∀ s', Steady calls strict t s s' → Q () s')
    (hE : ∀ e s', Steady calls strict t s s' → (strict → e = .enoent) → E e s') :
    triple calls strict (.call t) (sys (.unlink name)) Q E s := by
  refine wp_fileStep fun ch r s' hok ha hexec => ?_
  rcases execLive_unlink hexec with ⟨rfl, e, rfl, he⟩ | ⟨-, rfl, rfl⟩
  · refine ⟨guarantee_self hinv, fun s'' hl => ⟨(fun _ hv => by cases hv), ?_⟩⟩
    rintro _ ⟨⟩
    exact hE e s'' (.of_later hl) fun hst => (he (hok.2 hst)).1
  · refine ⟨hg ha hok.1, fun s'' hl => ⟨fun _ _ => hQ s'' ?_, fun _ hv => by cases hv⟩⟩
    refine .step (hg ha hok.1) hl ?_ rfl rfl (fun n => ?_) (fun _ _ _ _ => rfl) hinv
    · rw [setName_names, if_neg (Ne.symm hlock)]
    · simp [LeaseState.setName]

/-- The last `stat` of the fence met no live call's fence, unless the call that made it had not
yet written its owner record. -/
def Judged (calls : Calls) (t : CallId) (s : LeaseState) : Prop :=
  ∀ i, s.seen t = some ⟨i, false⟩ → i < s.nextInode ∧
    ∀ w, calls.alive s w = true → ¬ FenceMine w i s

theorem FenceSeen.judged {snapshot : LeaseFileSnapshot} (h : FenceSeen calls t snapshot s)
    (hdead : ∀ r, snapshot.raw = .record r →
      s.dead (calls.pid (s.file snapshot.stat.ino).creator) = true) : Judged calls t s := by
  intro i hseen
  obtain ⟨b, hb, hrecord⟩ := h.seen
  obtain ⟨rfl, rfl⟩ : snapshot.stat.ino = i ∧ b = false := by simpa using hb.symm.trans hseen
  refine ⟨h.lt, fun w ha hf => ?_⟩
  obtain ⟨r, hr⟩ := hrecord rfl w ha hf
  have := hdead r hr
  rw [hf.creator] at this
  rw [alive_iff, this] at ha
  cases ha

/-- What licenses the unlink of a reclaim: the last look at the fence, or at a name set aside. -/
def Condemned (calls : Calls) (t : CallId) (name : Name) (s : LeaseState) : Prop :=
  (name = .fence → Judged calls t s) ∧
    ∀ n i, name = .stale n → s.names name = some i → s.dead (calls.pid (s.file i).creator) = true

theorem wp_unlinkCondemned {name : Name} {Q : Unit → LeaseState → Prop} {E : LeaseError → LeaseState → Prop} (hinv : Inv
    calls s) (hlock : name ≠ .lock) (hcondemned : Condemned calls t name s) (hQ : ∀ s', Steady calls strict t s s' → Q
    () s') (hE : ∀ e s', Steady calls strict t s s' → (strict → e = .enoent) → E e s') : triple calls strict (.call t)
    (sys (.unlink name)) Q E s := by
  refine wp_unlinkAside hinv hlock (fun _ hsafe => ?_) hQ hE
  cases hname : name.uuid with
  | some n =>
    refine guarantee_discard hinv hname fun w i hw ha hstale hi hc _ => ?_
    have hdead := hcondemned.2 n i hstale hi
    rw [hc] at hdead
    rw [alive_iff, hdead] at ha
    cases ha
  | none =>
    obtain rfl : name = .fence := by
      cases name <;> simp [Name.uuid] at hname hlock ⊢
    refine guarantee_unfence hinv fun w i hw ha hf => ?_
    rcases hsafe i hf.name with hown | hseen
    · exact hw (hf.creator.symm.trans hown)
    · exact (hcondemned.1 rfl i hseen).2 w ha hf

theorem wp_reclaimUnpublishedFile {name : Name} (hinv : Inv calls s) (hlock : name ≠ .lock) :
    triple calls strict (.call t) (reclaimUnpublishedFile calls.hostname name)
      (fun _ => Steady calls strict t s) (fun _ => Steady calls strict t s) s := by
  refine wp_bind (wp_readStableSnapshot hinv (fun before s₁ hs₁ _ hbefore => ?_)
    fun e s₁ hs₁ _ _ => hs₁)
  cases before with
  | none => exact hs₁
  | some snapshot =>
    have hobserved := hbefore snapshot rfl
    -- the file that the snapshot is of, and whose record it can be
    have hfile : snapshot.stat.ino < s₁.nextInode ∧ ∀ r, snapshot.raw = .record r →
        (s₁.file snapshot.stat.ino).content = .record r := by
      cases hname : name.uuid with
      | some n =>
        have := hobserved.asideSeen hinv hname
        exact ⟨this.lt, this.record⟩
      | none =>
        obtain rfl : name = .fence := by
          cases name <;> simp [Name.uuid] at hname hlock ⊢
        have := hobserved.fenceSeen hinv
        exact ⟨this.lt, this.record⟩
    refine wp_bind (wp_quietStep (c := .dateNow) trivial hs₁.inv fun ch r s₂ _ _ _ hl₂ =>
      ⟨fun now _ => ?_, fun e _ => hs₁.later hl₂⟩)
    have hs₂ := hs₁.later hl₂
    have hwritten : ∀ r, snapshot.raw = .record r →
        Written calls (s₁.file snapshot.stat.ino).creator r := fun r hr =>
      hs₁.inv.records _ _ (hfile.2 r hr)
    refine wp_bind (wp_isRecoverableUnpublishedSnapshot hl₂.inv hwritten
      fun recoverable s₃ hl₃ hdead => ?_)
    have hs₃ := hs₂.later hl₃
    cases recoverable with
    | false => exact hs₃
    | true =>
      refine wp_bind (wp_readStableSnapshot hs₃.inv (fun after s₄ hs₄ _ hafter => ?_)
        fun e s₄ hs₄ _ _ => hs₃.trans hs₄)
      have hs := hs₃.trans hs₄
      split
      · exact hs
      · rename_i hsame
        obtain rfl : after = some snapshot := not_not.mp hsame
        have hobserved₄ := hafter snapshot rfl
        have hcreator : (s₄.file snapshot.stat.ino).creator =
            (s₁.file snapshot.stat.ino).creator :=
          ((Steady.of_later hl₂).later hl₃ |>.trans hs₄).kept.base.creator _ hfile.1
        have hdead₄ : ∀ r, snapshot.raw = .record r →
            s₄.dead (calls.pid (s₄.file snapshot.stat.ino).creator) = true := fun r hr => by
          rw [hcreator]
          exact hs₄.kept.base.dead _ (hl₃.rely.base.dead _ (hdead rfl r hr))
        have hcondemned : Condemned calls t name s₄ := by
          refine ⟨?_, ?_⟩
          · rintro rfl
            exact (hobserved₄.fenceSeen hs₃.inv).judged hdead₄
          · rintro n i rfl hi
            have haside := hobserved₄.asideSeen hs₃.inv rfl
            obtain ⟨r, hr⟩ := haside.stale n rfl
            rw [haside.names i hi]
            exact hdead₄ r hr
        refine wp_attempt (wp_bind (wp_unlinkCondemned hs₄.inv hlock hcondemned
          (fun s₅ hs₅ => hs.trans hs₅) fun e s₅ hs₅ _ => ?_))
        split
        · exact hs.trans hs₅
        · exact hs.trans hs₅

theorem wp_reclaimOrphans {names : List Name} (hinv : Inv calls s)
    (hnames : ∀ name ∈ names, name ≠ .lock) :
    triple calls strict (.call t) (reclaimOrphans calls.hostname names)
      (fun _ => Steady calls strict t s) (fun _ => Steady calls strict t s) s := by
  induction names generalizing s with
  | nil => exact .self hinv
  | cons name names ih =>
    refine wp_bind (wp_mono (wp_reclaimUnpublishedFile hinv (hnames name (by simp)))
      (fun _ s₁ hs₁ => ?_) fun _ _ h => h)
    exact wp_mono (ih hs₁.inv fun other hother => hnames other (by simp [hother]))
      (fun _ _ h => hs₁.trans h) fun _ _ h => hs₁.trans h

theorem wp_reclaimOrphanCandidates (hinv : Inv calls s) :
    triple calls strict (.call t) (reclaimOrphanCandidates calls.hostname)
      (fun _ => Steady calls strict t s) (fun _ => Steady calls strict t s) s := by
  refine wp_bind (wp_quietStep (c := .readdir) trivial hinv fun ch r s₁ _ _ hexec hl =>
    ⟨fun names hr => ?_, fun e _ => .of_later hl⟩)
  subst hr
  have hnames : ∀ name ∈ names, name ≠ .lock := by
    have : names = s.orphanNames := by
      cases ch <;> simp_all [execLive]
    subst this
    intro name hname
    simp only [LeaseState.orphanNames, List.mem_filter, List.mem_flatMap] at hname
    obtain ⟨⟨n, -, hn⟩, -⟩ := hname
    rintro rfl
    simp at hn
  exact wp_mono (wp_reclaimOrphans hl.inv hnames) (fun _ _ h => (Steady.of_later hl).trans h)
    fun _ _ h => (Steady.of_later hl).trans h

end Reclaiming

/-! ## The fence -/

section Fence

variable {t : CallId} {s : LeaseState}

theorem execLive_openExclusive {name : Name} {ch : Choice} {r : (Cmd.openExclusive name).Response}
    {s' : LeaseState} (hexec : execLive calls t s (.openExclusive name) ch = some (r, s')) :
    (s' = s ∧ ∃ e, r = .error e ∧ (ch = .ok → e = .eexist ∧ ∃ i, s.names name = some i)) ∨
      s.names name = none ∧ s' = s.create t name ∧ r = .ok s.nextInode := by
  cases ch <;> cases hname : s.names name <;>
    simp only [execLive, hname, Option.some.injEq, Prod.mk.injEq] at hexec <;>
    obtain ⟨rfl, rfl⟩ := hexec <;> simp

theorem execLive_writeRecord {fd : Nat} {record : LeaseRecord} {ch : Choice}
    {r : (Cmd.writeRecord fd record).Response} {s' : LeaseState}
    (hexec : execLive calls t s (.writeRecord fd record) ch = some (r, s')) :
    (ch ≠ .ok ∧ (s' = s.setInitialising t none ∨ ∃ content, s' = s.write t fd content ∧
        ∀ r, content = .record r → r = record) ∧ ∃ e, r = .error e) ∨
      s' = s.write t fd (.record record) ∧ r = .ok () := by
  cases ch with
  | tornWrite bytes =>
    simp only [execLive, Option.some.injEq, Prod.mk.injEq] at hexec
    obtain ⟨rfl, rfl⟩ := hexec
    exact .inl ⟨by simp, .inr ⟨_, rfl, fun _ h => by cases h⟩, _, rfl⟩
  | syncFail =>
    simp only [execLive, Option.some.injEq, Prod.mk.injEq] at hexec
    obtain ⟨rfl, rfl⟩ := hexec
    exact .inl ⟨by simp, .inr ⟨_, rfl, fun _ h => by cases h; rfl⟩, _, rfl⟩
  | _ =>
    simp only [execLive, Option.some.injEq, Prod.mk.injEq] at hexec
    obtain ⟨rfl, rfl⟩ := hexec
    simp

theorem wp_recordFor {kind : RecordKind} {token : OwnerToken} {leaseDurationMs : Nat} {Q : LeaseRecord → LeaseState →
    Prop} {E : LeaseError → LeaseState → Prop} (hinv : Inv calls s) (howner : token.leaseOwner = calls.owner t) (hQ : ∀
    r s', Written calls t r → r.owner = some token → Later calls strict t s s' → Q r s') : triple calls strict (.call t)
    (recordFor calls t kind token leaseDurationMs) Q E s := by
  refine wp_bind (wp_quietStep (c := .dateNow) trivial hinv fun ch r s' _ _ hexec hl =>
    ⟨fun now _ => hQ _ s' ⟨rfl, rfl, token, rfl, howner⟩ rfl hl, fun e hr => ?_⟩)
  subst hr
  cases ch <;> simp [execLive] at hexec

/-- Call `t` has created file `i` under this name and has its descriptor. -/
structure Created (calls : Calls) (t : CallId) (name : Name) (i : Nat) (s : LeaseState) :
    Prop where
  inv : Inv calls s
  lt : i < s.nextInode
  creator : (s.file i).creator = t
  used : s.used name = true
  fence : name = .fence → calls.alive s t = true → FenceMine t i s
  candidate : ∀ n j, name = .candidate n → s.names name = some j → j = i

theorem Created.later {name : Name} {i : Nat} {s' : LeaseState} (h : Created calls t name i s)
    (hl : Later calls strict t s s') : Created calls t name i s' where
  inv := hl.inv
  lt := h.lt.trans_le hl.rely.base.next_le
  creator := (hl.rely.base.creator i h.lt).trans h.creator
  used := hl.rely.base.used _ h.used
  fence hname ha := (hl.rely.own t rfl).fence ha i (h.fence hname (hl.rely.base.alive ha))
  candidate n j hname hj := h.candidate n j hname
    (hl.rely.base.rebind name n j (by rw [hname]; rfl) h.used hj)

theorem created_create {name : Name} (hinv : Inv calls (s.create t name)) :
    Created calls t name s.nextInode (s.create t name) := by
  have hself : (s.create t name).names name = some s.nextInode := by
    simp [LeaseState.create, LeaseState.setFile, LeaseState.setInitialising, LeaseState.setName]
  have hcreator : ((s.create t name).file s.nextInode).creator = t := by
    simp [LeaseState.create, LeaseState.setFile, LeaseState.setInitialising]
  refine ⟨hinv, Nat.lt_succ_self _, hcreator, hinv.used _ _ hself, ?_, ?_⟩
  · rintro rfl _
    exact ⟨hself, hcreator, .inl (by simp [LeaseState.create, LeaseState.setInitialising])⟩
  · rintro n j - hj
    exact Option.some.inj (hj.symm.trans hself)

theorem initialising_create {name : Name} : (s.create t name).initialising t = some s.nextInode := by
  simp [LeaseState.create, LeaseState.setInitialising]

theorem Steady.created {name : Name} {s' : LeaseState} (hinv : Inv calls s) (hlock : Name.lock ≠ name) (hstale : ∀ n,
    Name.stale n ≠ name) (hg : (discipline calls strict).Guarantee (.call t) s (s.create t name)) (hl : Later calls
    strict t (s.create t name) s') : Steady calls strict t s s' := by
  refine .step hg hl ?_ rfl rfl (fun n => ?_) (fun i r hlt _ => ?_) hinv
  · show (if Name.lock = name then _ else _) = _
    rw [if_neg hlock]
  · simp [LeaseState.create, LeaseState.setFile, LeaseState.setInitialising, LeaseState.setName, hstale n]
  · simp [LeaseState.create, LeaseState.setFile, LeaseState.setInitialising, LeaseState.setName, hlt.ne]

theorem Created.write {name : Name} {i : Nat} {content : LeaseContent} (h : Created calls t name i s) (hinv : Inv calls
    (s.write t i content)) (hr : ∃ r, content = .record r) : Created calls t name i (s.write t i content) := by
  have hfile : (s.write t i content).file i = { s.file i with content, mtimeMs := s.now } := by
    simp [LeaseState.write, LeaseState.setFile, LeaseState.setInitialising]
  refine ⟨hinv, h.lt, by rw [hfile]; exact h.creator, h.used, fun hname ha => ?_,
    fun n j hname hj => h.candidate n j hname hj⟩
  obtain ⟨r, rfl⟩ := hr
  exact ⟨(h.fence hname ha).name, by rw [hfile]; exact h.creator, .inr ⟨r, by rw [hfile]⟩⟩

theorem Steady.wrote {fd : Nat} {content : LeaseContent} {s' : LeaseState} (hinv : Inv calls s) (hinit : s.initialising
    t = some fd) (hg : (discipline calls strict).Guarantee (.call t) s (s.write t fd content)) (hl : Later calls strict
    t (s.write t fd content) s') : Steady calls strict t s s' := by
  refine .step hg hl rfl rfl rfl (fun _ => rfl) (fun i r _ hr => ?_) hinv
  have hi : i ≠ fd := by
    rintro rfl
    simp [(hinv.init t i hinit).2.1] at hr
  simp [LeaseState.write, LeaseState.setFile, LeaseState.setInitialising, hi]

/-- The owner record of a file that call `t` has just created. -/
theorem wp_writeCreated {name : Name} {i : Nat} {record : LeaseRecord}
    {Q : Unit → LeaseState → Prop} {E : LeaseError → LeaseState → Prop}
    (hrecord : Written calls t record) (hcreated : Created calls t name i s)
    (hinit : s.initialising t = some i)
    (hQ : ∀ s', Steady calls strict t s s' → Created calls t name i s' →
      (s'.file i).content = .record record → Q () s')
    (hE : ∀ e s', Steady calls strict t s s' → ¬ strict → E e s') :
    triple calls strict (.call t)
      ((sys (.writeRecord i record)).ensure (sys (.close i))) Q E s := by
  have hclose : ∀ {s₁ : LeaseState} {ch} {r : (Cmd.close i).Response}, strict →
      Admits strict (.call t) (.close i) ch s₁ → execLive calls t s₁ (.close i) ch = some (r, s₁) →
      r = .ok () := by
    intro s₁ ch r hst hok hexec
    obtain rfl : ch = .ok := hok.2 hst
    simp only [execLive, Option.some.injEq, Prod.mk.injEq] at hexec
    exact hexec.1.symm
  refine wp_ensure (wp_fileStep fun ch r s' hok ha hexec => ?_)
  rcases execLive_writeRecord hexec with ⟨hch, hs', e, rfl⟩ | ⟨rfl, rfl⟩
  · -- the call does not learn which bytes reached the disk
    have hnot : ¬ strict := fun hst => hch (hok.2 hst)
    have hsteady : (discipline calls strict).Guarantee (.call t) s s' ∧
        ∀ s₁, Later calls strict t s' s₁ → Steady calls strict t s s₁ := by
      rcases hs' with rfl | ⟨content, rfl, hcontent⟩
      · have hg : (discipline calls strict).Guarantee (.call t) _ _ :=
      guarantee_abandon (t := t) hcreated.inv
        exact ⟨hg, fun s₁ hl => .step hg hl rfl rfl rfl (fun _ => rfl) (fun _ _ _ _ => rfl)
          hcreated.inv⟩
      · have hg : (discipline calls strict).Guarantee (.call t) _ _ :=
      guarantee_write hcreated.inv hinit
          fun r hr => hcontent r hr ▸ hrecord
        exact ⟨hg, fun s₁ hl => .wrote hcreated.inv hinit hg hl⟩
    refine ⟨hsteady.1, fun s₁ hl₁ => ⟨(fun _ hv => by cases hv), fun e' _ => ?_⟩⟩
    have hs₁ := hsteady.2 s₁ hl₁
    exact wp_quietStep (c := .close i) trivial hs₁.inv fun _ _ s₂ _ _ _ hl₂ =>
      ⟨fun _ _ => hE _ s₂ (hs₁.later hl₂) hnot, fun _ _ => hE _ s₂ (hs₁.later hl₂) hnot⟩
  · have hg : (discipline calls strict).Guarantee (.call t) s (s.write t i (.record record)) :=
      guarantee_write hcreated.inv hinit fun r hr => by cases hr; exact hrecord
    refine ⟨hg, fun s₁ hl₁ => ⟨fun _ _ => ?_, fun _ hv => by cases hv⟩⟩
    have hs₁ := Steady.wrote hcreated.inv hinit hg hl₁
    have hwrote := (hcreated.write hg.inv ⟨record, rfl⟩).later hl₁
    have hcontent : (s₁.file i).content = .record record := by
      refine hl₁.rely.base.record hg.inv hcreated.lt ?_
      simp [LeaseState.write, LeaseState.setFile, LeaseState.setInitialising]
    refine wp_quietStep (c := .close i) trivial hs₁.inv fun ch₂ r₂ s₂ hok₂ _ hexec₂ hl₂ =>
      ⟨fun _ _ => ?_, fun e hr => hE e s₂ (hs₁.later hl₂) fun hst => ?_⟩
    · exact hQ s₂ (hs₁.later hl₂) (hwrote.later hl₂)
        (hl₂.rely.base.record hs₁.inv hwrote.lt hcontent)
    · have := hclose hst hok₂ hexec₂
      rw [hr] at this
      cases this

/-- `writeRecord` with the fence, or with a candidate whose name nobody has used. -/
theorem wp_writeRecord {name : Name} {record : LeaseRecord} {Q : Unit → LeaseState → Prop}
    {E : LeaseError → LeaseState → Prop} (hinv : Inv calls s) (hrecord : Written calls t record)
    (hname : name = .fence ∨ ∃ n, name = .candidate n ∧ s.drawnBy n = t ∧ n < s.nextUuid ∧
      s.used name = false)
    (hQ : ∀ i s', Steady calls strict t s s' → Created calls t name i s' →
      (s'.file i).content = .record record → Q () s')
    (hE : ∀ e s', Steady calls strict t s s' →
      (strict → e = .eexist ∧ (name = .fence → s.releasing t = false)) → E e s') :
    triple calls strict (.call t) (writeRecord name record) Q E s := by
  refine wp_bind (wp_fileStep fun ch r s' hok ha hexec => ?_)
  rcases execLive_openExclusive hexec with ⟨rfl, e, rfl, hexists⟩ | ⟨hfree, rfl, rfl⟩
  · refine ⟨guarantee_self hinv, fun s₁ hl => ⟨(fun _ hv => by cases hv), ?_⟩⟩
    rintro _ ⟨⟩
    refine hE e s₁ (.of_later hl) fun hst => ?_
    have hch := hok.2 hst
    rcases hname with rfl | ⟨n, rfl, -⟩
    · obtain ⟨he, i, hi⟩ := hexists hch.1
      refine ⟨he, fun _ => ?_⟩
      by_contra hreleasing
      have hfree := hch.2 (by simpa using hreleasing)
      simp [hi] at hfree
    · exact ⟨(hexists hch).1, fun h => by cases h⟩
  · have hg : (discipline calls strict).Guarantee (.call t) _ _ :=
      guarantee_create hinv hfree hname
    refine ⟨hg, fun s₁ hl₁ => ⟨?_, fun _ hv => by cases hv⟩⟩
    rintro _ ⟨⟩
    have hlock : Name.lock ≠ name := by
      rcases hname with rfl | ⟨n, rfl, -⟩ <;> simp
    have hstale : ∀ n, Name.stale n ≠ name := by
      rcases hname with rfl | ⟨n, rfl, -⟩ <;> simp
    have hs₁ := Steady.created hinv hlock hstale hg hl₁
    exact wp_writeCreated hrecord ((created_create hg.inv).later hl₁)
      ((hl₁.rely.own t rfl).initialising.trans initialising_create)
      (fun s₂ hs₂ hcreated hr => hQ _ s₂ (hs₁.trans hs₂) hcreated hr)
      fun e s₂ hs₂ hst => hE e s₂ (hs₁.trans hs₂) fun h => absurd h hst

theorem wp_acquireReclaimFenceIn {token : OwnerToken} {left : Nat} {Q : Bool → LeaseState → Prop}
    {E : LeaseError → LeaseState → Prop} (hinv : Inv calls s)
    (howner : token.leaseOwner = calls.owner t)
    (hQ : ∀ fenced s', Steady calls strict t s s' →
      (fenced = true → calls.alive s' t = true → ∃ i, FenceMine t i s') →
      (strict → s.releasing t = true → 0 < left → fenced = true) → Q fenced s')
    (hE : ∀ e s', Steady calls strict t s s' → (strict → s.releasing t = true → left = 0) →
      E e s') :
    triple calls strict (.call t) (acquireReclaimFenceIn calls t token left) Q E s := by
  induction left generalizing s with
  | zero => exact hQ false s (.self hinv) (fun h => by cases h) fun _ _ h => by cases h
  | succ left ih =>
    refine wp_attempt (wp_bind (wp_recordFor hinv howner fun record s₁ hrecord _ hl₁ => ?_))
    have hreleasing₁ : s₁.releasing t = s.releasing t := (hl₁.rely.own t rfl).releasing
    refine wp_bind (wp_writeRecord hl₁.inv hrecord (.inl rfl) (fun i s₂ hs₂ hcreated _ => ?_)
      fun e s₂ hs₂ hstrict => ?_)
    · exact hQ true s₂ ((Steady.of_later hl₁).trans hs₂)
        (fun _ ha => ⟨i, hcreated.fence rfl ha⟩) fun _ _ _ => rfl
    · have hs := (Steady.of_later hl₁).trans hs₂
      -- a strict release has found the fence free
      have hnot : ¬ (strict ∧ s.releasing t = true) := by
        rintro ⟨hst, hr⟩
        have := (hstrict hst).2 rfl
        simp [hreleasing₁, hr] at this
      split
      · exact hE e s₂ hs fun hst hr => absurd ⟨hst, hr⟩ hnot
      · split
        · exact hQ false s₂ hs (fun h => by cases h) fun hst hr _ => absurd ⟨hst, hr⟩ hnot
        · refine wp_bind (wp_mono (wp_reclaimUnpublishedFile hs₂.inv (by simp))
            (fun reclaimed s₃ hs₃ => ?_) fun e s₃ hs₃ =>
              hE e s₃ (hs.trans hs₃) fun hst hr => absurd ⟨hst, hr⟩ hnot)
          split
          · exact ih hs₃.inv
              (fun fenced s₄ hs₄ hfence _ => hQ fenced s₄ ((hs.trans hs₃).trans hs₄) hfence
                fun hst hr _ => absurd ⟨hst, hr⟩ hnot)
              fun e s₄ hs₄ _ => hE e s₄ ((hs.trans hs₃).trans hs₄)
                fun hst hr => absurd ⟨hst, hr⟩ hnot
          · exact hQ false s₃ (hs.trans hs₃) (fun h => by cases h)
              fun hst hr _ => absurd ⟨hst, hr⟩ hnot

theorem wp_acquireReclaimFence {token : OwnerToken} {Q : Bool → LeaseState → Prop}
    {E : LeaseError → LeaseState → Prop} (hinv : Inv calls s)
    (howner : token.leaseOwner = calls.owner t)
    (hQ : ∀ fenced s', Steady calls strict t s s' →
      (fenced = true → calls.alive s' t = true → ∃ i, FenceMine t i s') →
      (strict → s.releasing t = true → fenced = true) → Q fenced s')
    (hE : ∀ e s', Steady calls strict t s s' → ¬ (strict ∧ s.releasing t = true) → E e s') :
    triple calls strict (.call t) (acquireReclaimFence calls t token) Q E s :=
  wp_acquireReclaimFenceIn hinv howner
    (fun fenced s' hs hfence hst => hQ fenced s' hs hfence fun h hr => hst h hr (by decide))
    fun e s' hs hst => hE e s' hs fun ⟨h, hr⟩ => by simpa using hst h hr

theorem wp_unlinkOwnFence {Q : Unit → LeaseState → Prop} {E : LeaseError → LeaseState → Prop}
    (hinv : Inv calls s)
    (hmine : ∀ i, s.names .fence = some i → calls.alive s t = true →
      (s.file i).creator = t)
    (hQ : ∀ s', Steady calls strict t s s' → Q () s')
    (hE : ∀ e s', Steady calls strict t s s' → (strict → e = .enoent) → E e s') :
    triple calls strict (.call t) (sys (.unlink .fence)) Q E s :=
  wp_unlinkAside hinv (by simp) (fun ha _ => guarantee_unfence hinv fun w i hw _ hf =>
    hw (hf.creator.symm.trans (hmine i hf.name ha))) hQ hE

theorem wp_readLeaseMetadata {name : Name} {Q : Option LeaseRecord → LeaseState → Prop}
    {E : LeaseError → LeaseState → Prop} (hinv : Inv calls s)
    (hQ : ∀ record s', Later calls strict t s s' →
      (∀ r, record = some r → ∃ i, s.names name = some i ∧ (s.file i).content = .record r) →
      (strict → calls.alive s t = true → ∀ i r, s.names name = some i →
        (s.file i).content = .record r → record = some r) → Q record s') :
    triple calls strict (.call t) (readLeaseMetadata name) Q E s := by
  refine wp_attempt (wp_bind (wp_quietStep (c := .readFile name) trivial hinv
    fun ch r s' hok _ hexec hl => ⟨fun raw hr => ?_, fun e hr => ?_⟩))
  · subst hr
    obtain ⟨i, hi, rfl⟩ := execLive_readFile hexec
    refine hQ _ s' hl (fun r hr => ⟨i, hi, ?_⟩) fun _ _ j r hj hr => ?_
    · cases hcontent : (s.file i).content <;> simp_all [parseLeaseRecord]
    · obtain rfl : i = j := Option.some.inj (hi.symm.trans hj)
      rw [hr, parseLeaseRecord]
  · subst hr
    refine hQ none s' hl (fun _ h => by cases h) fun hst _ i r hi _ => ?_
    obtain rfl : ch = .ok := hok.2 hst
    simp [execLive, hi] at hexec

theorem Written.eq_of_token {v : CallId} {r : LeaseRecord} {token : OwnerToken} (h : Written calls v r) (htoken :
    r.owner = some token) (howner : token.leaseOwner = calls.owner t) : v = t := by
  obtain ⟨token', htoken', howner'⟩ := h.owner
  obtain rfl : token' = token := Option.some.inj (htoken'.symm.trans htoken)
  exact congrArg LeaseOwner.uuid (howner'.symm.trans howner)

theorem FenceMine.of_record {i : Nat} {r : LeaseRecord} {token : OwnerToken} (hinv : Inv calls s) (hi : s.names .fence =
    some i) (hr : (s.file i).content = .record r) (htoken : r.owner = some token) (howner : token.leaseOwner =
    calls.owner t) : FenceMine t i s :=
  ⟨hi, (hinv.records i r hr).eq_of_token htoken howner, .inr ⟨r, hr⟩⟩

theorem wp_releaseReclaimFenceSync {token : OwnerToken} (hinv : Inv calls s)
    (howner : token.leaseOwner = calls.owner t) :
    triple calls strict (.call t) (releaseReclaimFenceSync token)
      (fun _ => Steady calls strict t s) (fun _ s' => Steady calls strict t s s' ∧ ¬ strict) s := by
  refine wp_attempt (wp_bind (wp_readLeaseMetadata hinv fun record s₁ hl₁ hread _ => ?_))
  have hs₁ := Steady.of_later hl₁
  split
  · rename_i htoken
    obtain ⟨r, rfl, hr⟩ := Option.bind_eq_some_iff.mp htoken
    obtain ⟨i, hi, hcontent⟩ := hread r rfl
    have hmine := FenceMine.of_record hinv hi hcontent hr howner
    refine wp_unlinkOwnFence hl₁.inv (fun j hj ha => ?_) (fun s₂ hs₂ => hs₁.trans hs₂)
      fun e s₂ hs₂ he => ?_
    · have hmine₁ := (hl₁.rely.own t rfl).fence ha i hmine
      obtain rfl : i = j := Option.some.inj (hmine₁.name.symm.trans hj)
      exact hmine₁.creator
    · split
      case isTrue => exact hs₁.trans hs₂
      case isFalse hne => exact ⟨hs₁.trans hs₂, fun hst => hne (he hst)⟩
  · exact hs₁

theorem wp_releaseReclaimFenceAsync {token : OwnerToken} (hinv : Inv calls s)
    (howner : token.leaseOwner = calls.owner t) :
    triple calls strict (.call t) (releaseReclaimFenceAsync token)
      (fun _ => Steady calls strict t s) (fun _ s' => Steady calls strict t s s' ∧ ¬ strict) s := by
  refine wp_attempt (wp_bind (wp_readStableSnapshot hinv (fun snapshot s₁ hs₁ _ hsnapshot => ?_)
    fun e s₁ hs₁ _ hst => ?_))
  · split
    · rename_i htoken
      cases snapshot with
      | none => simp at htoken
      | some v =>
        have hobserved := hsnapshot v rfl
        obtain ⟨r, hr, htoken⟩ : ∃ r, v.raw = .record r ∧ r.owner = some token := by
          cases hraw : v.raw <;> simp_all [LeaseFileSnapshot.ownedBy, parseLeaseRecord]
        obtain ⟨s', s₂, i, hs', hl₂, hi, hraw, hname, -, hs₂, hfence, -⟩ := hobserved.read
        have hlt := (hinv.names_lt _ _ hobserved.first).trans_le hs'.kept.base.next_le
        obtain rfl : i = v.stat.ino :=
          Option.some.inj (hi.symm.trans (hl₂.rely.base.fence_old _ hname hlt))
        have hmine : FenceMine t v.stat.ino s₂ := by
          refine .of_record hl₂.inv hname (hl₂.rely.base.record hs'.inv hlt (hraw.trans hr))
            htoken howner
        refine wp_unlinkOwnFence hs₁.inv (fun j hj ha => ?_) (fun s₃ hs₃ => hs₁.trans hs₃)
          fun e s₃ hs₃ he => ?_
        · have hmine₁ := hfence _ ha hmine
          obtain rfl : v.stat.ino = j := Option.some.inj (hmine₁.name.symm.trans hj)
          exact hmine₁.creator
        · split
          case isTrue => exact hs₁.trans hs₃
          case isFalse hne => exact ⟨hs₁.trans hs₃, fun hst => hne (he hst)⟩
    · exact hs₁
  · split
    · exact hs₁
    · exact ⟨hs₁, hst⟩

theorem wp_releaseReclaimFence {mode : Mode} {token : OwnerToken} (hinv : Inv calls s)
    (howner : token.leaseOwner = calls.owner t) :
    triple calls strict (.call t) (releaseReclaimFence mode token)
      (fun _ => Steady calls strict t s) (fun _ s' => Steady calls strict t s s' ∧ ¬ strict) s := by
  cases mode with
  | sync => exact wp_releaseReclaimFenceSync hinv howner
  | async => exact wp_releaseReclaimFenceAsync hinv howner

end Fence

end RabiRoute.Lease
