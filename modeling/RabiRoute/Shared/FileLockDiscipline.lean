import RabiRoute.Shared.FileLock
import RabiRoute.Interleave.RelyGuarantee

/-!
# What the calls of the file lock leave each other

`InPlace t i` says that the lock path names the file that call `t` is initialising or owns.  The
discipline of the calls is that nobody takes a live call's file out of place; here each step that
the calls make is shown to keep it, given what its caller knows.
-/

open Interleave Interleave.Program

namespace RabiRoute.FileLock

variable {calls : Calls}

theorem alive_iff {s : LockState} {t : CallId} : calls.alive s t = true ↔ s.dead (calls.pid t) = false := by
  simp [Calls.alive]

/-- The lock path names the file of call `t`, which it still initialises or has made its own. -/
structure InPlace (calls : Calls) (t : CallId) (i : Nat) (s : LockState) : Prop where
  path : s.path = some i
  creator : (s.file i).creator = t
  content : s.initialising t = some i ∨
    ∃ createdAt, (s.file i).content = .record (calls.ownRecord t createdAt)

structure Inv (calls : Calls) (s : LockState) : Prop where
  path_lt : ∀ i, s.path = some i → i < s.nextInode
  init : ∀ t i, s.initialising t = some i →
    i < s.nextInode ∧ (s.file i).content = .unwritten ∧ (s.file i).creator = t
  records : ∀ i r, (s.file i).content = .record r →
    ∃ createdAt, r = calls.ownRecord (s.file i).creator createdAt
  holds : ∀ t, calls.alive s t = true → s.holding t = true → ∃ i, InPlace calls t i s

/-- What the clock, deaths and the other calls may do between two steps of call `t`. -/
structure Rely (calls : Calls) (t : CallId) (s s' : LockState) : Prop where
  now_le : s.now ≤ s'.now
  dead : ∀ p, s.dead p = true → s'.dead p = true
  next_le : s.nextInode ≤ s'.nextInode
  path_old : ∀ i, s'.path = some i → i < s.nextInode → s.path = some i
  creator : ∀ i, i < s.nextInode → (s'.file i).creator = (s.file i).creator
  init_old : ∀ u i, s'.initialising u = some i → i < s.nextInode → s.initialising u = some i
  file_old : ∀ i, i < s.nextInode → s'.file i = s.file i ∨
    (s.now ≤ (s'.file i).mtime ∧ ∃ u, s.initialising u = some i)
  file_new : ∀ i, s.nextInode ≤ i → i < s'.nextInode → s.now ≤ (s'.file i).mtime
  seen : s'.seen t = s.seen t
  holding : s'.holding t = s.holding t
  initialising : s'.initialising t = s.initialising t
  place : ∀ i, InPlace calls t i s → calls.alive s' t = true → InPlace calls t i s'

theorem Rely.alive {t : CallId} {s s' : LockState} (h : Rely calls t s s') {u : CallId}
    (hu : calls.alive s' u = true) : calls.alive s u = true := by
  rw [alive_iff] at *
  by_contra hd
  have := h.dead _ (by simpa using hd)
  simp [this] at hu

theorem Rely.refl (t : CallId) (s : LockState) : Rely calls t s s :=
  ⟨le_refl _, fun _ h => h, le_refl _, fun _ h _ => h, fun _ _ => rfl, fun _ _ h _ => h,
    fun _ _ => .inl rfl, fun _ h h' => absurd h (not_le.mpr h'), rfl, rfl, rfl, fun _ h _ => h⟩

theorem Rely.trans {t : CallId} {s s' s'' : LockState} (h : Rely calls t s s')
    (h' : Rely calls t s' s'') : Rely calls t s s'' where
  now_le := h.now_le.trans h'.now_le
  dead p hp := h'.dead p (h.dead p hp)
  next_le := h.next_le.trans h'.next_le
  path_old i hi hlt := h.path_old i (h'.path_old i hi (hlt.trans_le h.next_le)) hlt
  creator i hlt := (h'.creator i (hlt.trans_le h.next_le)).trans (h.creator i hlt)
  init_old u i hi hlt := h.init_old u i (h'.init_old u i hi (hlt.trans_le h.next_le)) hlt
  file_old i hlt := by
    rcases h'.file_old i (hlt.trans_le h.next_le) with hsame | ⟨hm, u, hi⟩
    · rw [hsame]
      exact h.file_old i hlt
    · exact .inr ⟨h.now_le.trans hm, u, h.init_old u i hi hlt⟩
  file_new i hle hlt := by
    rcases lt_or_ge i s'.nextInode with hold | hnew
    · rcases h'.file_old i hold with hsame | ⟨hm, -⟩
      · rw [hsame]
        exact h.file_new i hle hold
      · exact h.now_le.trans hm
    · exact h.now_le.trans (h'.file_new i hnew hlt)
  seen := h'.seen.trans h.seen
  holding := h'.holding.trans h.holding
  initialising := h'.initialising.trans h.initialising
  place i hp ha := h'.place i (h.place i hp (h'.alive ha)) ha

def discipline (calls : Calls) : Discipline LockState CallId :=
  ⟨Inv calls, Rely calls, Rely.refl, fun _ _ _ _ ↦ Rely.trans⟩

/-- Files never come back into place: one that others left in place was there before. -/
theorem Rely.inPlace_back {t u : CallId} {i : Nat} {s s' : LockState} (h : Rely calls t s s') (hinv : Inv calls s) (hlt
    : i < s.nextInode) (hp : InPlace calls u i s') : InPlace calls u i s := by
  have hcreator : (s.file i).creator = u := (h.creator i hlt).symm.trans hp.creator
  refine ⟨h.path_old i hp.path hlt, hcreator, ?_⟩
  rcases hp.content with hinit | ⟨createdAt, hrec⟩
  · exact .inl (h.init_old u i hinit hlt)
  · rcases h.file_old i hlt with hsame | ⟨-, v, hv⟩
    · exact .inr ⟨createdAt, hsame ▸ hrec⟩
    · have hvu : v = u := (hinv.init v i hv).2.2.symm.trans hcreator
      exact .inl (hvu ▸ hv)

theorem InPlace.unique {t u : CallId} {i j : Nat} {s : LockState}
    (h : InPlace calls t i s) (h' : InPlace calls u j s) : t = u := by
  have hij : i = j := Option.some.inj (h.path.symm.trans h'.path)
  subst hij
  exact h.creator.symm.trans h'.creator

/-! ## The effects of single steps -/

theorem InPlace.congr {t : CallId} {i : Nat} {s s' : LockState} (h : InPlace calls t i s) (hpath : s'.path = s.path)
    (hfile : s'.file i = s.file i) (hinit : s'.initialising t = s.initialising t) : InPlace calls t i s' :=
  ⟨hpath ▸ h.path, hfile ▸ h.creator, by rw [hinit, hfile]; exact h.content⟩

/-- A step that leaves the path, the files and the unfinished creates alone. -/
structure Frame (s s' : LockState) : Prop where
  now_le : s.now ≤ s'.now
  dead : ∀ p, s.dead p = true → s'.dead p = true
  path : s'.path = s.path
  file : s'.file = s.file
  next : s'.nextInode = s.nextInode
  init : s'.initialising = s.initialising

theorem Frame.inPlace {s s' : LockState} (h : Frame s s') {t : CallId} {i : Nat}
    (hp : InPlace calls t i s) : InPlace calls t i s' :=
  hp.congr h.path (by rw [h.file]) (by rw [h.init])

theorem Frame.rely {t : CallId} {s s' : LockState} (h : Frame s s') (hseen : s'.seen t = s.seen t)
    (hholding : s'.holding t = s.holding t) : Rely calls t s s' where
  now_le := h.now_le
  dead := h.dead
  next_le := h.next.ge
  path_old i hi _ := h.path ▸ hi
  creator i _ := by rw [h.file]
  init_old u i hi _ := h.init ▸ hi
  file_old i _ := .inl (by rw [h.file])
  file_new i hle hlt := absurd (h.next ▸ hlt) (not_lt.mpr hle)
  seen := hseen
  holding := hholding
  initialising := by rw [h.init]
  place i hp _ := h.inPlace hp

theorem Frame.inv {s s' : LockState} (h : Frame s s') (hinv : Inv calls s)
    (hholding : ∀ u, s'.holding u = true → s.holding u = true ∨ ∃ i, InPlace calls u i s) :
    Inv calls s' where
  path_lt i hi := by
    rw [h.next]
    exact hinv.path_lt i (h.path ▸ hi)
  init := by
    rw [h.init, h.file, h.next]
    exact hinv.init
  records := by
    rw [h.file]
    exact hinv.records
  holds u halive hh := by
    rcases hholding u hh with hold | ⟨i, hp⟩
    · have halive' : calls.alive s u = true := by
        rw [alive_iff] at *
        by_contra hd
        simp [h.dead _ (by simpa using hd)] at halive
      obtain ⟨i, hp⟩ := hinv.holds u halive' hold
      exact ⟨i, h.inPlace hp⟩
    · exact ⟨i, h.inPlace hp⟩

theorem event_keeps {e : Event} {s s' : LockState} (hinv : Inv calls s) (he : (machine calls).event e s = some s') : Inv
    calls s' ∧ ∀ t, Rely calls t s s' := by
  have hframe : Frame s s' ∧ s'.seen = s.seen ∧ s'.holding = s.holding := by
    cases e with
    | tick ms =>
      simp only [machine, event, Option.some.injEq] at he
      subst he
      exact ⟨⟨Nat.le_add_right _ _, fun _ h => h, rfl, rfl, rfl, rfl⟩, rfl, rfl⟩
    | die pid =>
      simp only [machine, event, Option.some.injEq] at he
      subst he
      refine ⟨⟨le_refl _, fun p hp => ?_, rfl, rfl, rfl, rfl⟩, rfl, rfl⟩
      by_cases hpid : p = pid
      · simp [hpid]
      · simpa [hpid] using hp
  obtain ⟨hframe, hseen, hholding⟩ := hframe
  exact ⟨hframe.inv hinv fun u hu => .inl (hholding ▸ hu),
    fun t => hframe.rely (by rw [hseen]) (by rw [hholding])⟩

theorem guarantee_self {t : CallId} {s : LockState} (hinv : Inv calls s) : (discipline calls).Guarantee t s s :=
  ⟨hinv, fun u _ => Rely.refl u s⟩

theorem guarantee_setSeen {t : CallId} {s : LockState} (g : Option Sighting)
    (hinv : Inv calls s) : (discipline calls).Guarantee t s (s.setSeen t g) := by
  have hframe : Frame s (s.setSeen t g) := ⟨le_refl _, fun _ h => h, rfl, rfl, rfl, rfl⟩
  exact ⟨hframe.inv hinv fun _ h => .inl h,
    fun u hu => hframe.rely (by simp [LockState.setSeen, hu]) rfl⟩

theorem guarantee_setHolding {t : CallId} {s : LockState} {b : Bool} (hinv : Inv calls s) (hb : b = true → ∃ i, InPlace
    calls t i s) : (discipline calls).Guarantee t s (s.setHolding t b) := by
  have hframe : Frame s (s.setHolding t b) := ⟨le_refl _, fun _ h => h, rfl, rfl, rfl, rfl⟩
  refine ⟨hframe.inv hinv fun u hu => ?_,
    fun u hu => hframe.rely rfl (by simp [LockState.setHolding, hu])⟩
  by_cases hut : u = t
  · subst hut
    exact .inr (hb (by simpa [LockState.setHolding] using hu))
  · exact .inl (by simpa [LockState.setHolding, hut] using hu)

theorem guarantee_create {t : CallId} {s : LockState} (hinv : Inv calls s)
    (hpath : s.path = none) : (discipline calls).Guarantee t s (s.create t) := by
  have hfile : ∀ i, i < s.nextInode → (s.create t).file i = s.file i := fun i hlt => by
    simp [LockState.create, LockState.setFile, LockState.setInitialising, hlt.ne]
  have hnone : ∀ u i, ¬ InPlace calls u i s := fun u i hp => by
    simp [hp.path] at hpath
  refine ⟨⟨?_, ?_, ?_, ?_⟩, fun u hu => ⟨le_refl _, fun _ h => h, Nat.le_succ _, ?_, ?_, ?_, ?_,
    ?_, rfl, rfl, ?_, fun i hp _ => absurd hp (hnone u i)⟩⟩
  · intro i hi
    simp only [LockState.create, LockState.setFile, LockState.setInitialising, Option.some.injEq] at hi ⊢
    omega
  · intro u i hi
    by_cases hu : u = t
    · subst hu
      have : s.nextInode = i := by
        simpa [LockState.create, LockState.setInitialising] using hi
      subst this
      simp [LockState.create, LockState.setFile, LockState.setInitialising]
    · have hold : s.initialising u = some i := by
        simpa [LockState.create, LockState.setFile, LockState.setInitialising, hu] using hi
      obtain ⟨hlt, hrest⟩ := hinv.init u i hold
      rw [hfile i hlt]
      exact ⟨Nat.lt_succ_of_lt hlt, hrest⟩
  · intro i r hr
    by_cases hi : i = s.nextInode
    · subst hi
      simp [LockState.create, LockState.setFile, LockState.setInitialising] at hr
    · have : (s.create t).file i = s.file i := by
        simp [LockState.create, LockState.setFile, LockState.setInitialising, hi]
      rw [this] at hr ⊢
      exact hinv.records i r hr
  · intro u halive hh
    obtain ⟨i, hp⟩ := hinv.holds u halive hh
    exact absurd hp (hnone u i)
  · intro i hi hlt
    simp only [LockState.create, LockState.setFile, LockState.setInitialising, Option.some.injEq] at hi
    omega
  · intro i hlt
    rw [hfile i hlt]
  · intro v i hi hlt
    by_cases hv : v = t
    · subst hv
      simp only [LockState.create, LockState.setInitialising, if_true, Option.some.injEq] at hi
      omega
    · simpa [LockState.create, LockState.setFile, LockState.setInitialising, hv] using hi
  · intro i hlt
    exact .inl (hfile i hlt)
  · intro i hle hlt
    have : i = s.nextInode := by
      simp only [LockState.create, LockState.setFile, LockState.setInitialising] at hlt
      omega
    subst this
    simp [LockState.create, LockState.setFile, LockState.setInitialising]
  · simp [LockState.create, LockState.setFile, LockState.setInitialising, hu]

/-- The caller's own unfinished file gets its bytes. -/
theorem guarantee_write {t : CallId} {s : LockState} {fd : Nat} {content : LockContent} (hinv : Inv calls s) (hinit :
    s.initialising t = some fd) (hidle : s.holding t = false) (hcontent : ∀ r, content = .record r → ∃ createdAt, r =
    calls.ownRecord t createdAt) : (discipline calls).Guarantee t s (s.write t fd content) := by
  obtain ⟨hfd, hunwritten, hcreator⟩ := hinv.init t fd hinit
  have hother : ∀ i, i ≠ fd → (s.write t fd content).file i = s.file i := fun i hi => by
    simp [LockState.write, LockState.setFile, LockState.setInitialising, hi]
  have hself : (s.write t fd content).file fd = { s.file fd with content, mtime := s.now } := by
    simp [LockState.write, LockState.setFile, LockState.setInitialising]
  have hinitOther : ∀ u, u ≠ t → (s.write t fd content).initialising u = s.initialising u :=
    fun u hu => by simp [LockState.write, LockState.setFile, LockState.setInitialising, hu]
  have hinitSelf : (s.write t fd content).initialising t = none := by
    simp [LockState.write, LockState.setInitialising]
  have hplace : ∀ u i, u ≠ t → InPlace calls u i s →
      InPlace calls u i (s.write t fd content) := by
    intro u i hu hp
    have hi : i ≠ fd := by
      rintro rfl
      exact hu (hp.creator.symm.trans hcreator)
    exact hp.congr rfl (hother i hi) (hinitOther u hu)
  refine ⟨⟨hinv.path_lt, ?_, ?_, ?_⟩, fun u hu => ⟨le_refl _, fun _ h => h, le_refl _,
    fun _ h _ => h, ?_, ?_, ?_, ?_, rfl, rfl, hinitOther u hu, fun i hp _ => hplace u i hu hp⟩⟩
  · intro u i hi
    have hu : u ≠ t := by
      rintro rfl
      rw [hinitSelf] at hi
      cases hi
    rw [hinitOther u hu] at hi
    obtain ⟨hlt, hc, hcr⟩ := hinv.init u i hi
    have hne : i ≠ fd := by
      rintro rfl
      exact hu (hcr.symm.trans hcreator)
    rw [hother i hne]
    exact ⟨hlt, hc, hcr⟩
  · intro i r hr
    by_cases hi : i = fd
    · subst hi
      rw [hself] at hr ⊢
      obtain ⟨createdAt, hown⟩ := hcontent r hr
      exact ⟨createdAt, by rw [hcreator]; exact hown⟩
    · rw [hother i hi] at hr ⊢
      exact hinv.records i r hr
  · intro u halive hh
    obtain ⟨i, hp⟩ := hinv.holds u halive hh
    have hu : u ≠ t := by
      rintro rfl
      have hh' : s.holding u = true := hh
      simp [hidle] at hh'
    exact ⟨i, hplace u i hu hp⟩
  · intro i _
    by_cases hi : i = fd
    · subst hi
      rw [hself]
    · rw [hother i hi]
  · intro v i hi _
    by_cases hv : v = t
    · subst hv
      rw [hinitSelf] at hi
      cases hi
    · rwa [hinitOther v hv] at hi
  · intro i _
    by_cases hi : i = fd
    · subst hi
      exact .inr ⟨by rw [hself], t, hinit⟩
    · exact .inl (hother i hi)
  · intro i hle hlt
    exact absurd hlt (not_lt.mpr hle)

/-- The write of the owner record failed before its first byte. -/
theorem guarantee_abandon {t : CallId} {s : LockState} (hinv : Inv calls s) (hidle : s.holding t = false) : (discipline
    calls).Guarantee t s (s.setInitialising t none) := by
  have hinitOther : ∀ u, u ≠ t → (s.setInitialising t none).initialising u = s.initialising u :=
    fun u hu => by simp [LockState.setInitialising, hu]
  have hinitSelf : (s.setInitialising t none).initialising t = none := by
    simp [LockState.setInitialising]
  refine ⟨⟨hinv.path_lt, ?_, hinv.records, ?_⟩, fun u hu => ⟨le_refl _, fun _ h => h, le_refl _,
    fun _ h _ => h, fun _ _ => rfl, ?_, fun _ _ => .inl rfl, ?_, rfl, rfl, hinitOther u hu,
    fun i hp _ => hp.congr rfl rfl (hinitOther u hu)⟩⟩
  · intro u i hi
    have hu : u ≠ t := by
      rintro rfl
      rw [hinitSelf] at hi
      cases hi
    rw [hinitOther u hu] at hi
    exact hinv.init u i hi
  · intro u halive hh
    obtain ⟨i, hp⟩ := hinv.holds u halive hh
    have hu : u ≠ t := by
      rintro rfl
      have hh' : s.holding u = true := hh
      simp [hidle] at hh'
    exact ⟨i, hp.congr rfl rfl (hinitOther u hu)⟩
  · intro v i hi _
    by_cases hv : v = t
    · subst hv
      rw [hinitSelf] at hi
      cases hi
    · rwa [hinitOther v hv] at hi
  · intro i hle hlt
    exact absurd hlt (not_lt.mpr hle)

/-- The path loses its file, which is no other live call's. -/
theorem guarantee_unlink {t : CallId} {s s' : LockState} (hinv : Inv calls s)
    (hother : ∀ u i, u ≠ t → calls.alive s u = true → ¬ InPlace calls u i s)
    (hs' : s' = { s with path := none, holding := s'.holding })
    (hself : s'.holding t = false) (hholding : ∀ u, u ≠ t → s'.holding u = s.holding u) :
    (discipline calls).Guarantee t s s' := by
  rw [hs']
  refine ⟨⟨(fun _ h => by cases h), hinv.init, hinv.records, ?_⟩, fun u hu => ⟨le_refl _, fun _ h => h,
    le_refl _, (fun _ h => by cases h), fun _ _ => rfl, fun _ _ h _ => h, fun _ _ => .inl rfl, ?_, rfl,
    hholding u hu, rfl, fun i hp halive => absurd hp (hother u i hu halive)⟩⟩
  · intro u halive hh
    by_cases hu : u = t
    · subst hu
      simp [hself] at hh
    · simp only [hholding u hu] at hh
      obtain ⟨i, hp⟩ := hinv.holds u halive hh
      exact absurd hp (hother u i hu halive)
  · intro i hle hlt
    exact absurd hlt (not_lt.mpr hle)

end RabiRoute.FileLock
