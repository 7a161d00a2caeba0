import RabiRoute.Shared.FileLockDiscipline

/-!
# What the file lock excludes

The programs of `filePersistence.ts` keep the discipline in every run whose reclaims are safe, so
at most one live call is between its acquisition and its release.
-/

open Interleave Interleave.Program

namespace RabiRoute.FileLock

variable {calls : Calls}


/-- A reclaim removes only the file that its last `statSync` met, and only when that file was not
then a live call's file still without its owner record; and a read that fails in a reclaim hides
no live call's lock. -/
def SafeReclaim (calls : Calls) (t : CallId) : Cmd → Choice → LockState → Prop
  | .unlinkStale, _, s => ∀ i, s.path = some i → s.seen t = some ⟨i, false⟩
  | .readFile, .fail, s =>
    s.holding t = true ∨ ∀ u i, calls.alive s u = true → ¬ InPlace calls u i s
  | _, _, _ => True

abbrev triple (calls : Calls) (t : CallId) {α : Type} (p : Prog α) (Q : α → LockState → Prop)
    (E : FsError → LockState → Prop) (s : LockState) : Prop :=
  wp (machine calls) (SafeReclaim calls) (discipline calls) t p Q E s

section Steps

variable {t : CallId} {s : LockState} {E : FsError → LockState → Prop}

theorem wp_fileStep {c : Cmd} {Q : c.Val → LockState → Prop}
    (h : ∀ ch r s', SafeReclaim calls t c ch s → calls.alive s t = true →
      execLive calls t s c ch = some (r, s') → (discipline calls).Guarantee t s s' ∧
        ∀ s'', (discipline calls).Later t s' s'' →
          (∀ v, r = .ok v → Q v s'') ∧ (∀ e, r = .error e → E e s'')) :
    triple calls t (sys c) Q E s := by
  refine wp_performOrThrow fun ch r s' hok hexec => ?_
  have halive : calls.alive s t = true := by
    by_contra hdead
    simp [machine, exec, hdead] at hexec
  exact h ch r s' hok halive (by simpa [machine, exec, halive] using hexec)

/-- A command that changes nothing, whatever it answers. -/
theorem wp_fileStep_silent {c : Cmd} {Q : c.Val → LockState → Prop} (hinv : Inv calls s)
    (hsilent : ∀ ch r s', execLive calls t s c ch = some (r, s') → s' = s)
    (hok : ∀ ch v s', SafeReclaim calls t c ch s → execLive calls t s c ch = some (.ok v, s) →
      (discipline calls).Later t s s' → Q v s')
    (herr : ∀ ch e s', SafeReclaim calls t c ch s →
      execLive calls t s c ch = some (.error e, s) →
      (discipline calls).Later t s s' → E e s') :
    triple calls t (sys c) Q E s := by
  refine wp_fileStep fun ch r s' hsafe _ hexec => ?_
  obtain rfl := hsilent ch r s' hexec
  refine ⟨guarantee_self hinv, fun s'' hl => ⟨?_, ?_⟩⟩
  · rintro v rfl
    exact hok ch v s'' hsafe hexec hl
  · rintro e rfl
    exact herr ch e s'' hsafe hexec hl

theorem wp_dateNow {Q : Nat → LockState → Prop} (hinv : Inv calls s) (h : ∀ s', (discipline calls).Later t s s' → Q
    s.now s') : triple calls t (sys .dateNow) Q E s := by
  refine wp_fileStep_silent hinv ?_ ?_ ?_
  · intro ch r s' he
    simp only [execLive, Option.some.injEq, Prod.mk.injEq] at he
    exact he.2.symm
  · intro ch v s' _ he hl
    simp only [execLive, Option.some.injEq, Prod.mk.injEq, Except.ok.injEq, and_true] at he
    exact he ▸ h s' hl
  · intro ch e s' _ he _
    simp [execLive] at he

theorem wp_kill {pid : Pid} {Q : Bool → LockState → Prop} (hinv : Inv calls s)
    (h : ∀ running s', (running = false → s.dead pid = true) →
      (discipline calls).Later t s s' → Q running s') :
    triple calls t (sys (.kill pid)) Q E s := by
  refine wp_fileStep_silent hinv ?_ ?_ ?_
  · intro ch r s' he
    simp only [execLive, Option.some.injEq, Prod.mk.injEq] at he
    exact he.2.symm
  · intro ch v s' _ he hl
    simp only [execLive, Option.some.injEq, Prod.mk.injEq, Except.ok.injEq, and_true] at he
    refine h v s' (fun hv => ?_) hl
    rw [← he] at hv
    simp only [Bool.or_eq_false_iff, Bool.not_eq_false'] at hv
    exact hv.1
  · intro ch e s' _ he _
    simp [execLive] at he

theorem wp_close {fd : Nat} {Q : Unit → LockState → Prop} (hinv : Inv calls s) (hQ : ∀ s', (discipline calls).Later t s
    s' → Q () s') (hE : ∀ s', (discipline calls).Later t s s' → E .eio s') : triple calls t (sys (.close fd)) Q E s :=
    by
  refine wp_fileStep_silent hinv ?_ ?_ ?_
  · intro ch r s' he
    cases ch <;> simp_all [execLive]
  · intro ch v s' _ _ hl
    exact hQ s' hl
  · intro ch e s' _ he hl
    cases ch <;> simp [execLive] at he
    exact he ▸ hE s' hl

theorem wp_wait {Q : Unit → LockState → Prop} (hinv : Inv calls s) (h : ∀ s', (discipline calls).Later t s s' → Q () s')
    : triple calls t (sys .wait) Q E s := by
  refine wp_fileStep_silent hinv ?_ ?_ ?_
  · intro ch r s' he
    simp only [execLive, Option.some.injEq, Prod.mk.injEq] at he
    exact he.2.symm
  · intro ch v s' _ _ hl
    exact h s' hl
  · intro ch e s' _ he _
    simp [execLive] at he

/-- What a read of the lock file says about live calls: the path names none of their files, or one
that is still being initialised, or one whose owner record the read returned. -/
structure ReadMeans (calls : Calls) (s : LockState) (record : Option FileLockRecord) : Prop where
  owned : ∀ r, record = some r → ∃ v createdAt, r = calls.ownRecord v createdAt
  inPlace : ∀ u i, calls.alive s u = true → InPlace calls u i s →
    s.initialising u = some i ∨ ∃ createdAt, record = some (calls.ownRecord u createdAt)

theorem wp_readFileLockRecord {Q : Option FileLockRecord → LockState → Prop} (hinv : Inv calls s) (hidle : s.holding t =
    false) (h : ∀ record s', ReadMeans calls s record → (discipline calls).Later t s s' → Q record s') : triple calls t
    readFileLockRecord Q E s := by
  have hnone : (∀ u i, calls.alive s u = true → InPlace calls u i s →
      s.initialising u = some i) → ReadMeans calls s none := fun hn =>
    ⟨(fun _ hr => by cases hr), fun u i ha hp => .inl (hn u i ha hp)⟩
  refine wp_attempt (wp_bind (wp_fileStep_silent hinv ?_ ?_ ?_))
  · intro ch r s' he
    cases ch <;> cases hpath : s.path <;> simp_all [execLive]
  · intro ch content s' _ he hl
    obtain ⟨i, hpath, hcontent⟩ : ∃ i, s.path = some i ∧ (s.file i).content = content := by
      cases ch <;> cases hpath : s.path <;> simp_all [execLive]
    cases content with
    | record r =>
      refine h (some r) s' ⟨?_, ?_⟩ hl
      · rintro _ ⟨⟩
        obtain ⟨createdAt, hr⟩ := hinv.records i r hcontent
        exact ⟨_, createdAt, hr⟩
      · intro u j _ hp
        obtain rfl : i = j := Option.some.inj (hpath.symm.trans hp.path)
        rcases hp.content with hinit | ⟨createdAt, hrec⟩
        · exact .inl hinit
        · rw [hcontent] at hrec
          cases hrec
          exact .inr ⟨createdAt, rfl⟩
    | unwritten =>
      refine h none s' (hnone fun u j _ hp => ?_) hl
      obtain rfl : i = j := Option.some.inj (hpath.symm.trans hp.path)
      rcases hp.content with hinit | ⟨createdAt, hrec⟩
      · exact hinit
      · simp [hcontent] at hrec
    | torn bytes =>
      refine h none s' (hnone fun u j _ hp => ?_) hl
      obtain rfl : i = j := Option.some.inj (hpath.symm.trans hp.path)
      rcases hp.content with hinit | ⟨createdAt, hrec⟩
      · exact hinit
      · simp [hcontent] at hrec
  · intro ch e s' hsafe he hl
    refine h none s' (hnone fun u j ha hp => ?_) hl
    -- a failing read is excused when no live call's lock is there
    cases ch with
    | fail =>
      rcases hsafe with hold | hno
      · simp [hidle] at hold
      · exact absurd hp (hno u j ha)
    | _ => simp [execLive, hp.path] at he

theorem wp_readFileLockRecord_any {Q : Option FileLockRecord → LockState → Prop} (hinv : Inv calls s) (h : ∀ record s',
    (discipline calls).Later t s s' → Q record s') : triple calls t readFileLockRecord Q E s := by
  refine wp_attempt (wp_bind (wp_fileStep_silent hinv ?_ ?_ ?_))
  · intro ch r s' he
    cases ch <;> cases hpath : s.path <;> simp_all [execLive]
  · intro ch content s' _ _ hl
    cases content with
    | record r => exact h (some r) s' hl
    | unwritten => exact h none s' hl
    | torn bytes => exact h none s' hl
  · intro ch e s' _ _ hl
    exact h none s' hl

/-! ### Reclaiming -/

/-- The last `statSync` of call `t` met a file that is no live call's lock, unless the call that
made it had not yet written its owner record. -/
def Judged (calls : Calls) (t : CallId) (s : LockState) : Prop :=
  ∀ i, s.seen t = some ⟨i, false⟩ → i < s.nextInode ∧
    ∀ u, calls.alive s u = true → ¬ InPlace calls u i s

theorem wp_unlinkStale {Q : Unit → LockState → Prop} (hinv : Inv calls s) (hidle : s.holding t = false) (hjudged :
    Judged calls t s) (hQ : ∀ s', Inv calls s' → s'.holding t = false → Q () s') (hE : ∀ e s', Inv calls s' → s'.holding
    t = false → E e s') : triple calls t (sys .unlinkStale) Q E s := by
  refine wp_fileStep fun ch r s' hsafe _ hexec => ?_
  have hcases : s' = s ∧ (∃ e, r = .error e) ∨ s' = { s with path := none } ∧ r = .ok () := by
    cases ch <;> cases hpath : s.path <;>
      simp only [execLive, hpath, Option.some.injEq, Prod.mk.injEq] at hexec <;>
      obtain ⟨rfl, rfl⟩ := hexec <;> simp
  rcases hcases with ⟨rfl, e, rfl⟩ | ⟨rfl, rfl⟩
  · refine ⟨guarantee_self hinv, fun s'' hl => ⟨(fun _ hv => by cases hv), fun e _ => ?_⟩⟩
    exact hE e s'' hl.inv (hl.rely.holding.trans hidle)
  · refine ⟨guarantee_unlink hinv (fun u i _ ha hp => ?_) rfl hidle fun _ _ => rfl,
      fun s'' hl => ⟨fun _ _ => ?_, fun _ hv => by cases hv⟩⟩
    · exact (hjudged i (hsafe i hp.path)).2 u ha hp
    · exact hQ s'' hl.inv (hl.rely.holding.trans hidle)

theorem wp_stat {Q : Stat → LockState → Prop} (hinv : Inv calls s)
    (hQ : ∀ i s', s.path = some i → s'.seen t = some ⟨i, calls.unfinished s i⟩ →
      Inv calls s' → Rely calls t (s.setSeen t (some ⟨i, calls.unfinished s i⟩)) s' →
      Q ⟨(s.file i).mtime, (s.file i).content.size⟩ s')
    (hE : ∀ e s', Inv calls s' → s'.holding t = s.holding t → E e s') :
    triple calls t (sys .stat) Q E s := by
  refine wp_fileStep fun ch r s' _ _ hexec => ?_
  have hcases : (s' = s ∨ s' = s.setSeen t none) ∧ (∃ e, r = .error e) ∨
      ∃ i, s.path = some i ∧ s' = s.setSeen t (some ⟨i, calls.unfinished s i⟩) ∧
        r = .ok ⟨(s.file i).mtime, (s.file i).content.size⟩ := by
    cases ch <;> cases hpath : s.path <;>
      simp only [execLive, hpath, Option.some.injEq, Prod.mk.injEq] at hexec <;>
      obtain ⟨rfl, rfl⟩ := hexec <;> simp
  rcases hcases with ⟨hs', e, rfl⟩ | ⟨i, hpath, rfl, rfl⟩
  · have hg : (discipline calls).Guarantee t s s' ∧ s'.holding t = s.holding t := by
      rcases hs' with rfl | rfl
      · exact ⟨guarantee_self hinv, rfl⟩
      · exact ⟨guarantee_setSeen none hinv, rfl⟩
    refine ⟨hg.1, fun s'' hl => ⟨(fun _ hv => by cases hv), fun e _ => ?_⟩⟩
    exact hE e s'' hl.inv (hl.rely.holding.trans hg.2)
  · refine ⟨guarantee_setSeen _ hinv, fun s'' hl => ⟨?_, fun _ hv => by cases hv⟩⟩
    rintro _ ⟨⟩
    refine hQ i s'' hpath ?_ hl.inv hl.rely
    rw [hl.rely.seen]
    simp [LockState.setSeen]

/-- Call `t` does not hold the lock. -/
structure Idle (calls : Calls) (t : CallId) (s : LockState) : Prop where
  inv : Inv calls s
  holding : s.holding t = false

theorem Idle.later {s' : LockState} (h : Idle calls t s) (hl : (discipline calls).Later t s s') : Idle calls t s' :=
  ⟨hl.inv, hl.rely.holding.trans h.holding⟩

theorem wp_sameHostProcessAlive {record : Option FileLockRecord} {Q : Bool → LockState → Prop}
    (hinv : Inv calls s) (hown : ∀ r, record = some r → ∃ v createdAt, r = calls.ownRecord v createdAt)
    (h : ∀ running s', (running = false → ∀ v createdAt, record = some (calls.ownRecord v createdAt) →
      s.dead (calls.pid v) = true) → (discipline calls).Later t s s' → Q running s') :
    triple calls t (sameHostProcessAlive calls.hostname record) Q E s := by
  cases record with
  | none => exact h false s (fun _ _ _ hr => by cases hr) (.self hinv)
  | some r =>
    obtain ⟨v, createdAt, rfl⟩ := hown r rfl
    simp only [sameHostProcessAlive, Calls.ownRecord, Option.any_some, ne_eq, not_true_eq_false,
      decide_false, Bool.false_eq_true, if_false, (calls.pid_pos v).ne']
    refine wp_kill hinv fun running s' hdead hl => h running s' (fun hr u c huc => ?_) hl
    simp only [Calls.ownRecord, Calls.owner, Option.some.injEq, FileLockRecord.mk.injEq, LockOwner.mk.injEq] at huc
    rw [← huc.2.2.1]
    exact hdead hr

theorem judged_of_stat {s₄ s₅ : LockState} {i before : Nat}
    {record afterRecord : Option FileLockRecord} (hinv₄ : Inv calls s₄)
    (hread : ReadMeans calls s₄ afterRecord)
    (hdead : ∀ v createdAt, record = some (calls.ownRecord v createdAt) →
      s₄.dead (calls.pid v) = true)
    (hown : ∀ r, record = some r → ∃ v createdAt, r = calls.ownRecord v createdAt)
    (howner : afterRecord.bind (·.owner) = record.bind (·.owner))
    (hold : before < s₄.now) (hl : Rely calls t s₄ s₅) (hlt : i < s₅.nextInode)
    (hmtime : (s₅.file i).mtime = before)
    (hfinished : calls.unfinished s₅ i = false) :
    ∀ u, calls.alive s₅ u = true → ¬ InPlace calls u i s₅ := by
  intro u ha hp
  -- the file is older than the second read, so it is the file that this read met
  have hlt₄ : i < s₄.nextInode := by
    by_contra hge
    have := hl.file_new i (not_lt.mp hge) hlt
    omega
  have hsame : s₅.file i = s₄.file i := by
    rcases hl.file_old i hlt₄ with hsame | ⟨hle, -⟩
    · exact hsame
    · omega
  have hp₄ : InPlace calls u i s₄ := hl.inPlace_back hinv₄ hlt₄ hp
  rcases hread.inPlace u i (hl.alive ha) hp₄ with hinit | ⟨createdAt, rfl⟩
  · have hunwritten : (s₅.file i).content = .unwritten := hsame ▸ (hinv₄.init u i hinit).2.1
    rcases hp.content with hinit₅ | ⟨c, hrec⟩
    · have hcreator : (s₅.file i).creator = u := hp.creator
      simp [Calls.unfinished, hcreator, ha, hinit₅] at hfinished
    · simp [hunwritten] at hrec
  · cases record with
    | none => simp [Calls.ownRecord] at howner
    | some r =>
      obtain ⟨v, c, rfl⟩ := hown r rfl
      simp only [Option.bind_some, Calls.ownRecord, Calls.owner, Option.some.injEq,
        LockOwner.mk.injEq, true_and] at howner
      have hd := hl.dead _ (hdead v c rfl)
      rw [alive_iff, howner.1] at ha
      simp [ha] at hd

theorem wp_reclaimStaleFileLock {staleMs : Nat} (hstale : 0 < staleMs) (hidle : Idle calls t s) :
    triple calls t (reclaimStaleFileLock calls.hostname staleMs) (fun _ => Idle calls t)
      (fun _ => Idle calls t) s := by
  refine wp_attempt (wp_mono (Q := fun _ => Idle calls t) (E := fun _ => Idle calls t) ?_
    (fun _ _ h => h) (fun e s h => ?_))
  · refine wp_bind (wp_stat hidle.inv ?_ fun e s' hinv hh => ⟨hinv, hh.trans hidle.holding⟩)
    intro i₀ s₁ _ _ hinv₁ hl₁
    have hidle₁ : Idle calls t s₁ := ⟨hinv₁, hl₁.holding.trans hidle.holding⟩
    refine wp_bind (wp_readFileLockRecord hinv₁ hidle₁.holding fun record s₂ hread hl₂ => ?_)
    have hidle₂ := hidle₁.later hl₂
    refine wp_bind (wp_sameHostProcessAlive hidle₂.inv hread.owned fun running s₃ hdead hl₃ => ?_)
    have hidle₃ := hidle₂.later hl₃
    cases running with
    | true => exact hidle₃
    | false =>
      refine wp_bind (wp_dateNow hidle₃.inv fun s₄ hl₄ => ?_)
      have hidle₄ := hidle₃.later hl₄
      split
      case isTrue => exact hidle₄
      case isFalse hage =>
        refine wp_bind (wp_readFileLockRecord hidle₄.inv hidle₄.holding
          fun afterRecord s₅ hread₅ hl₅ => ?_)
        have hidle₅ := hidle₄.later hl₅
        refine wp_bind (wp_stat hidle₅.inv ?_ fun e s' hinv hh => ⟨hinv, hh.trans hidle₅.holding⟩)
        intro i s₆ hpath hseen hinv₆ hl₆
        have hidle₆ : Idle calls t s₆ := ⟨hinv₆, hl₆.holding.trans hidle₅.holding⟩
        split
        case isTrue => exact hidle₆
        case isFalse hchanged =>
          simp only [not_or, not_not, ne_eq] at hchanged
          have hjudged : Judged calls t s₆ := by
            intro j hj
            obtain ⟨rfl, hfinished⟩ : i = j ∧ calls.unfinished s₅ i = false := by
              simpa using hseen.symm.trans hj
            have hlt : i < s₅.nextInode := hidle₅.inv.path_lt i hpath
            have hage' : staleMs ≤ s₃.now - (s.file i₀).mtime := not_lt.mp hage
            have hnow : s₃.now ≤ s₄.now := hl₄.rely.now_le
            have hdead₄ : ∀ v c, record = some (calls.ownRecord v c) →
                s₄.dead (calls.pid v) = true := fun v c hr =>
              hl₄.rely.dead _ (hl₃.rely.dead _ (hdead rfl v c hr))
            have hno := judged_of_stat hidle₄.inv hread₅ hdead₄ hread.owned hchanged.1
              (Nat.lt_of_lt_of_le (by omega) hnow) hl₅.rely hlt hchanged.2.1 hfinished
            exact ⟨hlt.trans_le hl₆.next_le, fun u ha hp => hno u (hl₆.alive ha)
              ((hl₆.inPlace_back (guarantee_setSeen (t := t) _ hidle₅.inv).inv hlt hp).congr
                rfl rfl rfl)⟩
          exact wp_bind (wp_unlinkStale hinv₆ hidle₆.holding hjudged
            (fun s' hinv hh => ⟨hinv, hh⟩) fun e s' hinv hh => ⟨hinv, hh⟩)
  · split
    · exact h
    · exact h

/-! ### Acquiring and releasing -/

/-- Call `t`, while its process lives, has its own file at the lock path. -/
structure Owner (calls : Calls) (t : CallId) (s : LockState) : Prop where
  inv : Inv calls s
  inPlace : calls.alive s t = true → ∃ i, InPlace calls t i s

theorem Owner.later {s' : LockState} (h : Owner calls t s) (hl : (discipline calls).Later t s s') :
    Owner calls t s' := by
  refine ⟨hl.inv, fun ha => ?_⟩
  obtain ⟨i, hp⟩ := h.inPlace (hl.rely.alive ha)
  exact ⟨i, hl.rely.place i hp ha⟩

theorem wp_openExclusive {Q : Nat → LockState → Prop} (hidle : Idle calls t s)
    (hQ : ∀ fd s', Idle calls t s' → s'.initialising t = some fd →
      (calls.alive s' t = true → InPlace calls t fd s') → Q fd s')
    (hE : ∀ e s', Idle calls t s' → E e s') :
    triple calls t (sys .openExclusive) Q E s := by
  refine wp_fileStep fun ch r s' _ _ hexec => ?_
  have hcases : s' = s ∧ (∃ e, r = .error e) ∨
      s.path = none ∧ s' = s.create t ∧ r = .ok s.nextInode := by
    cases ch <;> cases hpath : s.path <;>
      simp only [execLive, hpath, Option.some.injEq, Prod.mk.injEq] at hexec <;>
      obtain ⟨rfl, rfl⟩ := hexec <;> simp
  rcases hcases with ⟨rfl, e, rfl⟩ | ⟨hpath, rfl, rfl⟩
  · exact ⟨guarantee_self hidle.inv, fun s'' hl =>
      ⟨(fun _ hv => by cases hv), fun e _ => hE e s'' (hidle.later hl)⟩⟩
  · refine ⟨guarantee_create hidle.inv hpath, fun s'' hl => ⟨?_, fun _ hv => by cases hv⟩⟩
    rintro _ ⟨⟩
    have hinit : (s.create t).initialising t = some s.nextInode := by
      simp [LockState.create, LockState.setInitialising]
    refine hQ _ s'' ⟨hl.inv, hl.rely.holding.trans hidle.holding⟩
      (hl.rely.initialising.trans hinit) fun ha => hl.rely.place _ ⟨rfl, ?_, .inl hinit⟩ ha
    simp [LockState.create, LockState.setFile, LockState.setInitialising]

theorem wp_writeRecord {fd createdAt : Nat} {Q : Unit → LockState → Prop} (hidle : Idle calls t s) (hinit :
    s.initialising t = some fd) (hplace : calls.alive s t = true → InPlace calls t fd s) (hQ : ∀ s', Idle calls t s' →
    Owner calls t s' → Q () s') (hE : ∀ e s', Idle calls t s' → E e s') : triple calls t (sys (.writeRecord fd
    (calls.ownRecord t createdAt))) Q E s := by
  have hwrite : ∀ content, (∀ r, content = .record r → ∃ c, r = calls.ownRecord t c) →
      (discipline calls).Guarantee t s (s.write t fd content) := fun content =>
    guarantee_write hidle.inv hinit hidle.holding
  refine wp_fileStep fun ch r s' _ ha hexec => ?_
  have hcases : (s' = s.setInitialising t none ∨ ∃ content, s' = s.write t fd content ∧
      ∀ r, content = .record r → ∃ c, r = calls.ownRecord t c) ∧ (∃ e, r = .error e) ∨
      s' = s.write t fd (.record (calls.ownRecord t createdAt)) ∧ r = .ok () := by
    cases ch with
    | tornWrite bytes =>
      simp only [execLive, Option.some.injEq, Prod.mk.injEq] at hexec
      obtain ⟨rfl, rfl⟩ := hexec
      exact .inl ⟨.inr ⟨_, rfl, fun _ h => by cases h⟩, _, rfl⟩
    | syncFail =>
      simp only [execLive, Option.some.injEq, Prod.mk.injEq] at hexec
      obtain ⟨rfl, rfl⟩ := hexec
      exact .inl ⟨.inr ⟨_, rfl, fun _ h => ⟨createdAt, by cases h; rfl⟩⟩, _, rfl⟩
    | _ =>
      simp only [execLive, Option.some.injEq, Prod.mk.injEq] at hexec
      obtain ⟨rfl, rfl⟩ := hexec
      simp
  rcases hcases with ⟨hs', e, rfl⟩ | ⟨rfl, rfl⟩
  · have hg : (discipline calls).Guarantee t s s' ∧ s'.holding t = s.holding t := by
      rcases hs' with rfl | ⟨content, rfl, hcontent⟩
      · exact ⟨guarantee_abandon hidle.inv hidle.holding, rfl⟩
      · exact ⟨hwrite content hcontent, rfl⟩
    exact ⟨hg.1, fun s'' hl => ⟨(fun _ hv => by cases hv), fun e _ =>
      hE e s'' ⟨hl.inv, (hl.rely.holding.trans hg.2).trans hidle.holding⟩⟩⟩
  · have hg := hwrite (.record (calls.ownRecord t createdAt)) fun r hr =>
      ⟨createdAt, by cases hr; rfl⟩
    refine ⟨hg, fun s'' hl => ⟨fun _ _ => ?_, fun _ hv => by cases hv⟩⟩
    refine hQ s'' ⟨hl.inv, hl.rely.holding.trans hidle.holding⟩ (Owner.later ⟨hg.inv, fun _ => ?_⟩ hl)
    have hp := hplace ha
    refine ⟨fd, hp.path, ?_, .inr ⟨createdAt, ?_⟩⟩ <;>
      simp [LockState.write, LockState.setFile, LockState.setInitialising, hp.creator]

theorem wp_createLockFile (hidle : Idle calls t s) :
    triple calls t (createLockFile calls t) (fun _ s' => Idle calls t s' ∧ Owner calls t s')
      (fun _ => Idle calls t) s := by
  refine wp_bind (wp_openExclusive hidle (fun fd s₁ hidle₁ hinit hplace => ?_) fun _ _ h => h)
  refine wp_ensure (wp_bind (wp_dateNow hidle₁.inv fun s₂ hl₂ => ?_))
  refine wp_writeRecord (hidle₁.later hl₂) (hl₂.rely.initialising.trans hinit)
    (fun ha => hl₂.rely.place _ (hplace (hl₂.rely.alive ha)) ha) ?_ ?_
  · intro s₃ hidle₃ howner
    exact wp_close hidle₃.inv (fun s₄ hl => ⟨hidle₃.later hl, howner.later hl⟩)
      fun s₄ hl => hidle₃.later hl
  · intro e s₃ hidle₃
    exact wp_close hidle₃.inv (fun s₄ hl => hidle₃.later hl) fun s₄ hl => hidle₃.later hl

theorem wp_acquireLoop {staleMs deadline : Nat} (hstale : 0 < staleMs) (turns : Nat)
    (hidle : Idle calls t s) :
    triple calls t (acquireLoop calls t staleMs deadline turns)
      (fun _ s' => Idle calls t s' ∧ Owner calls t s') (fun _ => Idle calls t) s := by
  induction turns generalizing s with
  | zero => exact hidle
  | succ turns ih =>
    refine wp_bind (wp_mono (Q := fun acquired s' =>
      Idle calls t s' ∧ (acquired = true → Owner calls t s')) (E := fun _ => Idle calls t)
      ?_ ?_ fun _ _ h => h)
    · refine wp_attempt (wp_bind (wp_mono (wp_createLockFile hidle)
        (fun _ s₁ h => ⟨h.1, fun _ => h.2⟩) fun e s₁ hidle₁ => ?_))
      split
      · exact hidle₁
      · refine wp_bind (wp_mono (wp_reclaimStaleFileLock hstale hidle₁) (fun removed s₂ hidle₂ => ?_)
          fun _ _ h => h)
        cases removed with
        | true => exact ⟨hidle₂, fun h => by cases h⟩
        | false =>
          refine wp_bind (wp_dateNow hidle₂.inv fun s₃ hl₃ => ?_)
          have hidle₃ := hidle₂.later hl₃
          split
          · exact hidle₃
          · exact wp_bind (wp_wait hidle₃.inv fun s₄ hl₄ =>
              ⟨hidle₃.later hl₄, fun h => by cases h⟩)
    · rintro acquired s₁ ⟨hidle₁, howner⟩
      cases acquired with
      | true => exact ⟨hidle₁, howner rfl⟩
      | false => exact ih hidle₁

theorem wp_acquireFileLockSync (hidle : Idle calls t s) :
    triple calls t (acquireFileLockSync calls t) (fun _ s' => Idle calls t s' ∧ Owner calls t s')
      (fun _ => Idle calls t) s :=
  wp_bind (wp_dateNow hidle.inv fun _ hl => wp_acquireLoop
    (Nat.lt_of_lt_of_le Nat.one_pos ((Nat.le_max_left _ _).trans (Nat.le_max_left _ _))) _
    (hidle.later hl))

theorem wp_releaseOwnedFileLock (howner : Owner calls t s) :
    triple calls t (releaseOwnedFileLock (calls.owner t)) (fun _ s' => Inv calls s')
      (fun _ s' => Inv calls s') s := by
  refine wp_attempt (wp_mono (Q := fun _ s' => Inv calls s') (E := fun _ s' => Inv calls s') ?_
    (fun _ _ h => h) fun e s' h => ?_)
  · refine wp_bind (wp_readFileLockRecord_any howner.inv fun record s₁ hl₁ => ?_)
    have howner₁ := howner.later hl₁
    split
    · refine wp_fileStep fun ch r s' _ ha hexec => ?_
      have hcases : s' = s₁ ∨ s'.holding = (s₁.setHolding t false).holding ∧
          s' = { s₁ with path := none, holding := s'.holding } := by
        cases ch <;> cases hpath : s₁.path <;>
          simp only [execLive, hpath, Option.some.injEq, Prod.mk.injEq] at hexec <;>
          obtain ⟨rfl, rfl⟩ := hexec <;> simp [LockState.setHolding, ← hpath]
      refine ⟨?_, fun s'' hl => ⟨fun _ _ => hl.inv, fun _ _ => hl.inv⟩⟩
      rcases hcases with rfl | ⟨hholding, hs'⟩
      · exact guarantee_self howner₁.inv
      · obtain ⟨i, hp⟩ := howner₁.inPlace ha
        exact guarantee_unlink howner₁.inv (fun u j hu _ hp' => hu (hp'.unique hp)) hs'
          (by simp [hholding, LockState.setHolding])
          fun u hu => by simp [hholding, LockState.setHolding, hu]
    · exact hl₁.inv
  · split
    · exact h
    · exact h

theorem wp_withFileLockSync (hidle : Idle calls t s) :
    triple calls t (withFileLockSync calls t) (fun _ _ => True) (fun _ _ => True) s := by
  refine wp_bind (wp_mono (wp_acquireFileLockSync hidle) (fun _ s₁ h => ?_) fun _ _ _ => trivial)
  obtain ⟨-, howner⟩ := h
  refine wp_bind (wp_fileStep fun ch r s' _ ha hexec => ?_)
  simp only [execLive, Option.some.injEq, Prod.mk.injEq] at hexec
  obtain ⟨rfl, rfl⟩ := hexec
  have hg := guarantee_setHolding (b := true) howner.inv fun _ => howner.inPlace ha
  have howner₁ : Owner calls t (s₁.setHolding t true) := by
    refine ⟨hg.inv, fun _ => ?_⟩
    obtain ⟨i, hp⟩ := howner.inPlace ha
    exact ⟨i, hp.congr rfl rfl rfl⟩
  refine ⟨hg, fun s₂ hl₂ => ⟨fun _ _ => ?_, fun _ hv => by cases hv⟩⟩
  have howner₂ : Owner calls t s₂ := howner₁.later hl₂
  refine wp_bind (wp_mono (wp_releaseOwnedFileLock howner₂) (fun _ s₃ hinv₃ => ?_)
    fun _ _ _ => trivial)
  refine wp_fileStep fun ch r s' _ _ hexec => ?_
  simp only [execLive, Option.some.injEq, Prod.mk.injEq] at hexec
  obtain ⟨rfl, rfl⟩ := hexec
  exact ⟨guarantee_setHolding hinv₃ (fun h => by cases h),
    fun _ _ => ⟨fun _ _ => trivial, fun _ _ => trivial⟩⟩

end Steps

/-! ## Runs -/

theorem verified_initial (calls : Calls) (now : Nat) :
    Verified (machine calls) (SafeReclaim calls) (discipline calls) (fun _ _ _ => True)
      (fun _ _ _ => True) (initial calls now) := by
  have hinv : Inv calls (initial calls now).shared :=
    ⟨(fun _ h => by cases h), (fun _ _ h => by cases h), (fun _ _ h => by cases h),
      fun _ _ h => by cases h⟩
  exact ⟨hinv, fun t s hl => wp_withFileLockSync ⟨hl.inv, hl.rely.holding⟩⟩

theorem verified_reach {now : Nat} {cfg : Config LockState Cmd Cmd.Response CallId FsError Unit}
    (h : (machine calls).ReachUnder (SafeReclaim calls) (initial calls now) cfg) :
    Verified (machine calls) (SafeReclaim calls) (discipline calls) (fun _ _ _ => True)
      (fun _ _ _ => True) cfg :=
  (verified_initial calls now).reach (fun _ _ _ => event_keeps) h

/-- At most one live call holds the lock. -/
def MutualExclusion (calls : Calls) (s : LockState) : Prop :=
  ∀ t u, calls.alive s t = true → s.holding t = true → calls.alive s u = true →
    s.holding u = true → t = u

/-- The next step of a reclaiming call does not remove a live contender's lock. -/
def ReclaimSpares (calls : Calls)
    (cfg : Config LockState Cmd Cmd.Response CallId FsError Unit) (t : CallId) : Prop :=
  ∀ k ch s', cfg.prog t = .step .unlinkStale k →
    exec calls t .unlinkStale ch cfg.shared = some (.ok (), s') →
    ∀ u i, u ≠ t → calls.alive cfg.shared u = true → ¬ InPlace calls u i cfg.shared

theorem Inv.mutualExclusion {s : LockState} (hinv : Inv calls s) : MutualExclusion calls s := by
  intro t u ht hht hu hhu
  obtain ⟨i, hp⟩ := hinv.holds t ht hht
  obtain ⟨j, hp'⟩ := hinv.holds u hu hhu
  exact hp.unique hp'

theorem Verified.reclaimSpares {cfg : Config LockState Cmd Cmd.Response CallId FsError Unit} {Q : CallId → Unit →
    LockState → Prop} {E : CallId → FsError → LockState → Prop} (h : Verified (machine calls) (SafeReclaim calls)
    (discipline calls) Q E cfg) {t : CallId} (hsafe : ∀ i, cfg.shared.path = some i → cfg.shared.seen t = some ⟨i,
    false⟩) : ReclaimSpares calls cfg t := by
  intro k ch s' hprog hexec u i hu ha hp
  have hwp := h.2 t cfg.shared (.self h.1)
  rw [hprog] at hwp
  obtain ⟨hg, -⟩ := hwp ch (.ok ()) s' hsafe hexec
  have ht : calls.alive cfg.shared t = true := by
    by_contra hdead
    simp [exec, hdead] at hexec
  have hs' : s' = { cfg.shared with path := none } := by
    cases ch <;> simp [exec, ht, execLive, hp.path] at hexec <;> exact hexec.symm
  subst hs'
  have hp' := (hg.others u hu).place i hp ha
  cases hp'.path

/-- In every run whose reclaims are safe, at most one live call is between its acquisition and its
release, and a safe reclaim removes no other live call's lock. -/
theorem fileLock_exclusive (calls : Calls) (now : Nat)
    (cfg : Config LockState Cmd Cmd.Response CallId FsError Unit)
    (h : (machine calls).ReachUnder (SafeReclaim calls) (initial calls now) cfg) :
    MutualExclusion calls cfg.shared ∧
      ∀ t, (∀ i, cfg.shared.path = some i → cfg.shared.seen t = some ⟨i, false⟩) →
        ReclaimSpares calls cfg t :=
  have hv := verified_reach h
  ⟨hv.1.mutualExclusion, fun _ hsafe ↦ Verified.reclaimSpares hv hsafe⟩

/-- Call `t` runs in the process `t + 1`. -/
def threeCalls : Calls where
  hostname := ['h']
  pid t := t + 1
  pid_pos _ := Nat.succ_pos _
  timeoutMs _ := 1000
  staleMs _ := 5000
  turns _ := 3

def steps (n : Nat) (t : CallId) : List (Label CallId Choice Event) :=
  List.replicate n (.run t .ok)

/-- The part of `SafeReclaim` that a run of these steps needs. -/
def ReclaimsSeen (t : CallId) : Cmd → Choice → LockState → Bool
  | .unlinkStale, _, s => decide (s.path.isNone ∨ s.seen t = s.path.map fun i ↦ ⟨i, false⟩)
  | .readFile, ch, _ => decide (ch ≠ .fail)
  | _, _, _ => true

theorem reclaimsSeen_safe {t : CallId} {c : Cmd} {ch : Choice} {s : LockState}
    (h : ReclaimsSeen t c ch s = true) : SafeReclaim calls t c ch s := by
  cases c with
  | unlinkStale =>
    intro i hi
    simpa [ReclaimsSeen, hi] using h
  | readFile =>
    cases ch with
    | fail => simp [ReclaimsSeen] at h
    | _ => trivial
  | _ => trivial

/-- Call 0 dies holding the lock, call 1 reclaims it and acquires it. -/
theorem fileLock_exclusive_reclaimed : ∃ cfg,
    (machine threeCalls).ReachUnder (SafeReclaim threeCalls) (initial threeCalls 0) cfg ∧
      cfg.shared.holding 1 = true ∧ MutualExclusion threeCalls cfg.shared := by
  have hrun : ((machine threeCalls).runUnder (fun t c ch s ↦ ReclaimsSeen t c ch s = true)
      (initial threeCalls 0) (steps 6 0 ++ [.event (.die 1), .event (.tick 5000)] ++
        steps 15 1)).any (fun cfg ↦ cfg.shared.holding 1) = true := by
    decide
  obtain ⟨cfg, hcfg, hholding⟩ := (Option.any_eq_true _ _).mp hrun
  have hreach : (machine threeCalls).ReachUnder (SafeReclaim threeCalls) (initial threeCalls 0) cfg :=
    (Machine.runUnder_reach hcfg).mono fun _ _ _ _ ↦ reclaimsSeen_safe
  exact ⟨cfg, hreach, hholding, (fileLock_exclusive threeCalls 0 cfg hreach).1⟩

/-- Calls 1 and 2 both judge the dead call 0's lock stale; call 1 removes it and acquires a lock of
its own, which the unlink of call 2 then removes. -/
theorem fileLock_not_exclusive : ¬ ∀ cfg,
    (machine threeCalls).Reach (initial threeCalls 0) cfg → MutualExclusion threeCalls cfg.shared := by
  intro hall
  have hrun : ((machine threeCalls).run (initial threeCalls 0)
      (steps 6 0 ++ [.event (.die 1), .event (.tick 5000)] ++ steps 8 1 ++ steps 9 2 ++ steps 5 2 ++
        steps 6 1)).any (fun cfg ↦ !cfg.shared.dead 2 && !cfg.shared.dead 3 &&
          cfg.shared.holding 1 && cfg.shared.holding 2) = true := by
    decide
  obtain ⟨cfg, hcfg, hholding⟩ := (Option.any_eq_true _ _).mp hrun
  simp only [Bool.and_eq_true, Bool.not_eq_true'] at hholding
  obtain ⟨⟨⟨hlive₁, hlive₂⟩, h₁⟩, h₂⟩ := hholding
  have := hall cfg (Machine.run_reach hcfg) 1 2 (by simpa [alive_iff, threeCalls] using hlive₁) h₁
    (by simpa [alive_iff, threeCalls] using hlive₂) h₂
  cases this

end RabiRoute.FileLock
