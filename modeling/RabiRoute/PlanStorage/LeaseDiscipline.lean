import RabiRoute.PlanStorage.LeaseProtocol
import RabiRoute.Interleave.RelyGuarantee

/-!
# What the calls of the plan storage lease leave each other

The lock file of a live call stays at the lock path, and while a live call has the reclaim fence
nobody else takes a file away from the lock path.  The effects of single steps are shown to keep
this.  With `strict` the files of a releasing call also keep their times, which is what a release
needs to find its lock unchanged.
-/

open Interleave Interleave.Program

namespace RabiRoute.Lease

variable {calls : Calls} {strict : Prop}

theorem alive_iff {s : LeaseState} {t : CallId} : calls.alive s t = true ↔ s.dead (calls.pid t) = false := by
  simp [Calls.alive]

theorem alive_of_dead_mono {s s' : LeaseState} (h : ∀ p, s.dead p = true → s'.dead p = true)
    {t : CallId} (ht : calls.alive s' t = true) : calls.alive s t = true := by
  rw [alive_iff] at *
  by_contra hd
  have := h _ (by simpa using hd)
  simp [this] at ht

/-- The UUID of a name that is drawn for one use. -/
def Name.uuid : Name → Option Nat
  | .candidate n => some n
  | .stale n => some n
  | _ => none

/-- A record that call `t` writes. -/
structure Written (calls : Calls) (t : CallId) (r : LeaseRecord) : Prop where
  host : r.host = some calls.hostname
  pid : r.pid = some (calls.pid t)
  owner : ∃ token, r.owner = some token ∧ token.leaseOwner = calls.owner t

/-- The lease record of a call, as it stands behind the lock and the stale names. -/
def LeaseFile.IsLease (calls : Calls) (f : LeaseFile) : Prop :=
  ∃ r, f.content = .record r ∧ r.owner = some (.lease (calls.owner f.creator))

def LockMine (t : CallId) (s : LeaseState) : Prop :=
  ∃ i, s.names .lock = some i ∧ (s.file i).creator = t

/-- The lock path does not carry the owner token of call `t`. -/
def NotCarried (t : CallId) (s : LeaseState) : Prop :=
  ∀ i, s.names .lock = some i → (s.file i).creator ≠ t

/-- The fence is the file of call `t`, which still initialises it or has written its record. -/
structure FenceMine (t : CallId) (i : Nat) (s : LeaseState) : Prop where
  name : s.names .fence = some i
  creator : (s.file i).creator = t
  content : s.initialising t = some i ∨ ∃ r, (s.file i).content = .record r

structure Inv (calls : Calls) (s : LeaseState) : Prop where
  names_lt : ∀ name i, s.names name = some i → i < s.nextInode
  used : ∀ name i, s.names name = some i → s.used name = true
  fresh : ∀ name n, name.uuid = some n → s.nextUuid ≤ n → s.used name = false
  init : ∀ t i, s.initialising t = some i →
    i < s.nextInode ∧ (s.file i).content = .unwritten ∧ (s.file i).creator = t
  records : ∀ i r, (s.file i).content = .record r → Written calls (s.file i).creator r
  lock_lease : ∀ i, s.names .lock = some i → (s.file i).IsLease calls
  stale_lease : ∀ n i, s.names (.stale n) = some i → (s.file i).IsLease calls
  holds : ∀ t, calls.alive s t = true → s.holding t = true → LockMine t s

/-- What every thread may assume of the others. -/
structure Base (s s' : LeaseState) : Prop where
  dead : ∀ p, s.dead p = true → s'.dead p = true
  next_le : s.nextInode ≤ s'.nextInode
  uuid_le : s.nextUuid ≤ s'.nextUuid
  creator : ∀ i, i < s.nextInode → (s'.file i).creator = (s.file i).creator
  content : ∀ i, i < s.nextInode →
    (s'.file i).content = (s.file i).content ∨ ∃ u, s.initialising u = some i
  init_old : ∀ u i, s'.initialising u = some i → i < s.nextInode → s.initialising u = some i
  fence_old : ∀ i, s'.names .fence = some i → i < s.nextInode → s.names .fence = some i
  drawn : ∀ n, n < s.nextUuid → s'.drawnBy n = s.drawnBy n
  used : ∀ name, s.used name = true → s'.used name = true
  rebind : ∀ name n i, name.uuid = some n → s.used name = true → s'.names name = some i →
    s.names name = some i

/-- What a call may assume of everybody else. -/
structure Own (calls : Calls) (strict : Prop) (t : CallId) (s s' : LeaseState) : Prop where
  seen : s'.seen t = s.seen t
  holding : s'.holding t = s.holding t
  releasing : s'.releasing t = s.releasing t
  initialising : s'.initialising t = s.initialising t
  unused : ∀ name n, name.uuid = some n → n < s.nextUuid → s.drawnBy n = t →
    s'.used name = s.used name
  lock : calls.alive s' t = true → ∀ i, s.names .lock = some i → (s.file i).creator = t →
    s'.names .lock = some i ∧ (s'.file i).creator = t
  fence : calls.alive s' t = true → ∀ i, FenceMine t i s → FenceMine t i s'
  fenced : calls.alive s' t = true → ∀ i j, FenceMine t j s → s.names .lock = some i →
    s'.names .lock = some i
  notCarried : calls.alive s' t = true → NotCarried t s → NotCarried t s'
  stale : calls.alive s' t = true → ∀ n i, n < s.nextUuid → s.drawnBy n = t →
    s.names (.stale n) = some i → (s.file i).creator = t →
    s'.names (.stale n) = some i ∧ (s'.file i).creator = t
  frozen : strict → s.releasing t = true → ∀ i r, i < s.nextInode → (s.file i).creator = t →
    (s.file i).content = .record r → s'.file i = s.file i

structure Rely (calls : Calls) (strict : Prop) (thread : Thread) (s s' : LeaseState) : Prop where
  base : Base s s'
  own : ∀ t, thread = .call t → Own calls strict t s s'

theorem Base.refl (s : LeaseState) : Base s s :=
  ⟨fun _ h => h, le_refl _, le_refl _, fun _ _ => rfl, fun _ _ => .inl rfl, fun _ _ h _ => h,
    fun _ h _ => h, fun _ _ => rfl, fun _ h => h, fun _ _ _ _ _ h => h⟩

theorem Base.trans {s s' s'' : LeaseState} (h : Base s s') (h' : Base s' s'') : Base s s'' where
  dead p hp := h'.dead p (h.dead p hp)
  next_le := h.next_le.trans h'.next_le
  uuid_le := h.uuid_le.trans h'.uuid_le
  creator i hlt := (h'.creator i (hlt.trans_le h.next_le)).trans (h.creator i hlt)
  content i hlt := by
    rcases h'.content i (hlt.trans_le h.next_le) with hsame | ⟨u, hu⟩
    · rw [hsame]
      exact h.content i hlt
    · exact .inr ⟨u, h.init_old u i hu hlt⟩
  init_old u i hi hlt := h.init_old u i (h'.init_old u i hi (hlt.trans_le h.next_le)) hlt
  fence_old i hi hlt := h.fence_old i (h'.fence_old i hi (hlt.trans_le h.next_le)) hlt
  drawn n hlt := (h'.drawn n (hlt.trans_le h.uuid_le)).trans (h.drawn n hlt)
  used name hu := h'.used name (h.used name hu)
  rebind name n i hn hu hi := h.rebind name n i hn hu (h'.rebind name n i hn (h.used name hu) hi)

theorem Base.alive {s s' : LeaseState} (h : Base s s') {t : CallId}
    (ht : calls.alive s' t = true) : calls.alive s t = true :=
  alive_of_dead_mono h.dead ht

/-- A written record never changes. -/
theorem Base.record {s s' : LeaseState} (h : Base s s') (hinv : Inv calls s) {i : Nat} {r : LeaseRecord} (hlt : i <
    s.nextInode) (hr : (s.file i).content = .record r) : (s'.file i).content = .record r := by
  rcases h.content i hlt with hsame | ⟨u, hu⟩
  · rw [hsame, hr]
  · have := (hinv.init u i hu).2.1
    simp [hr] at this

theorem Own.refl (t : CallId) (s : LeaseState) : Own calls strict t s s :=
  ⟨rfl, rfl, rfl, rfl, fun _ _ _ _ _ => rfl, fun _ _ h hc => ⟨h, hc⟩, fun _ _ h => h,
    fun _ _ _ _ h => h, fun _ h => h, fun _ _ _ _ _ h hc => ⟨h, hc⟩, fun _ _ _ _ _ _ _ => rfl⟩

theorem Own.trans {t : CallId} {s s' s'' : LeaseState} (hb : Base s s') (hb' : Base s' s'')
    (h : Own calls strict t s s') (h' : Own calls strict t s' s'') : Own calls strict t s s'' where
  seen := h'.seen.trans h.seen
  holding := h'.holding.trans h.holding
  releasing := h'.releasing.trans h.releasing
  initialising := h'.initialising.trans h.initialising
  unused name n hn hlt hd :=
    (h'.unused name n hn (hlt.trans_le hb.uuid_le) ((hb.drawn n hlt).trans hd)).trans
      (h.unused name n hn hlt hd)
  lock ha i hi hc := by
    obtain ⟨hi', hc'⟩ := h.lock (hb'.alive ha) i hi hc
    exact h'.lock ha i hi' hc'
  fence ha i hf := h'.fence ha i (h.fence (hb'.alive ha) i hf)
  fenced ha i j hf hi :=
    h'.fenced ha i j (h.fence (hb'.alive ha) j hf) (h.fenced (hb'.alive ha) i j hf hi)
  notCarried ha hn := h'.notCarried ha (h.notCarried (hb'.alive ha) hn)
  stale ha n i hlt hd hi hc := by
    obtain ⟨hi', hc'⟩ := h.stale (hb'.alive ha) n i hlt hd hi hc
    exact h'.stale ha n i (hlt.trans_le hb.uuid_le) ((hb.drawn n hlt).trans hd) hi' hc'
  frozen hs hr i r hlt hc hcontent := by
    have hfirst := h.frozen hs hr i r hlt hc hcontent
    have hsecond := h'.frozen hs (h.releasing.trans hr) i r (hlt.trans_le hb.next_le)
      (hfirst ▸ hc) (hfirst ▸ hcontent)
    exact hsecond.trans hfirst

theorem Rely.refl (thread : Thread) (s : LeaseState) : Rely calls strict thread s s :=
  ⟨Base.refl s, fun t _ => Own.refl t s⟩

theorem Rely.trans {thread : Thread} {s s' s'' : LeaseState} (h : Rely calls strict thread s s')
    (h' : Rely calls strict thread s' s'') : Rely calls strict thread s s'' :=
  ⟨h.base.trans h'.base, fun t ht => Own.trans h.base h'.base (h.own t ht) (h'.own t ht)⟩

def discipline (calls : Calls) (strict : Prop) : Discipline LeaseState Thread :=
  ⟨Inv calls, Rely calls strict, Rely.refl, fun _ _ _ _ ↦ Rely.trans⟩

/-- A fence never comes back: one that a live call has now, it had before. -/
theorem Base.fence_back {t : CallId} {i : Nat} {s s' : LeaseState} (h : Base s s')
    (hinv : Inv calls s) (hlt : i < s.nextInode) (hf : FenceMine t i s') : FenceMine t i s := by
  have hcreator : (s.file i).creator = t := (h.creator i hlt).symm.trans hf.creator
  refine ⟨h.fence_old i hf.name hlt, hcreator, ?_⟩
  rcases hf.content with hinit | ⟨r, hr⟩
  · exact .inl (h.init_old t i hinit hlt)
  · rcases h.content i hlt with hsame | ⟨u, hu⟩
    · exact .inr ⟨r, hsame ▸ hr⟩
    · have hut : u = t := (hinv.init u i hu).2.2.symm.trans hcreator
      exact .inl (hut ▸ hu)

theorem FenceMine.unique {t u : CallId} {i j : Nat} {s : LeaseState} (h : FenceMine t i s)
    (h' : FenceMine u j s) : t = u := by
  have hij : i = j := Option.some.inj (h.name.symm.trans h'.name)
  subst hij
  exact h.creator.symm.trans h'.creator

theorem LockMine.unique {t u : CallId} {s : LeaseState} (h : LockMine t s) (h' : LockMine u s) : t = u := by
  obtain ⟨i, hi, hc⟩ := h
  obtain ⟨j, hj, hc'⟩ := h'
  have hij : i = j := Option.some.inj (hi.symm.trans hj)
  subst hij
  exact hc.symm.trans hc'

/-! ## Steps that leave the names alone -/

/-- Nothing but clocks, deaths, marks, shared words and file times changes. -/
structure Frame (s s' : LeaseState) : Prop where
  dead : ∀ p, s.dead p = true → s'.dead p = true
  names : s'.names = s.names
  used : s'.used = s.used
  nextInode : s'.nextInode = s.nextInode
  nextUuid : s'.nextUuid = s.nextUuid
  drawnBy : s'.drawnBy = s.drawnBy
  initialising : s'.initialising = s.initialising
  content : ∀ i, (s'.file i).content = (s.file i).content
  creator : ∀ i, (s'.file i).creator = (s.file i).creator

theorem Frame.base {s s' : LeaseState} (h : Frame s s') : Base s s' where
  dead := h.dead
  next_le := h.nextInode.ge
  uuid_le := h.nextUuid.ge
  creator i _ := h.creator i
  content i _ := .inl (h.content i)
  init_old u i hi _ := h.initialising ▸ hi
  fence_old i hi _ := h.names ▸ hi
  drawn n _ := by rw [h.drawnBy]
  used name hu := by rwa [h.used]
  rebind name n i _ _ hi := h.names ▸ hi

theorem Frame.own {s s' : LeaseState} (h : Frame s s') {t : CallId} (hseen : s'.seen t = s.seen t)
    (hholding : s'.holding t = s.holding t) (hreleasing : s'.releasing t = s.releasing t)
    (hfile : strict → s.releasing t = true → ∀ i, (s.file i).creator = t → s'.file i = s.file i) :
    Own calls strict t s s' where
  seen := hseen
  holding := hholding
  releasing := hreleasing
  initialising := by rw [h.initialising]
  unused _ _ _ _ _ := by rw [h.used]
  lock _ i hi hc := ⟨by rwa [h.names], (h.creator i).trans hc⟩
  fence _ i hf := ⟨by rw [h.names]; exact hf.name, (h.creator i).trans hf.creator,
    by rw [h.initialising, h.content]; exact hf.content⟩
  fenced _ i j _ hi := by rwa [h.names]
  notCarried _ hn i hi := by
    rw [h.creator]
    exact hn i (h.names ▸ hi)
  stale _ n i _ _ hi hc := ⟨by rwa [h.names], (h.creator i).trans hc⟩
  frozen hs hr i _ _ hc _ := hfile hs hr i hc

theorem LeaseFile.IsLease.congr {f f' : LeaseFile} (h : f.IsLease calls)
    (hcontent : f'.content = f.content) (hcreator : f'.creator = f.creator) : f'.IsLease calls := by
  obtain ⟨r, hr, howner⟩ := h
  exact ⟨r, hcontent.trans hr, hcreator ▸ howner⟩

theorem Frame.inv {s s' : LeaseState} (h : Frame s s') (hinv : Inv calls s)
    (hholding : ∀ t, s'.holding t = true → s.holding t = true ∨ LockMine t s) : Inv calls s' where
  names_lt name i hi := by
    rw [h.nextInode]
    exact hinv.names_lt name i (h.names ▸ hi)
  used name i hi := by
    rw [h.used]
    exact hinv.used name i (h.names ▸ hi)
  fresh name n hn hle := by
    rw [h.used]
    exact hinv.fresh name n hn (h.nextUuid ▸ hle)
  init t i hi := by
    rw [h.nextInode, h.content, h.creator]
    exact hinv.init t i (h.initialising ▸ hi)
  records i r hr := by
    rw [h.creator]
    exact hinv.records i r ((h.content i).symm.trans hr)
  lock_lease i hi := (hinv.lock_lease i (h.names ▸ hi)).congr (h.content i) (h.creator i)
  stale_lease n i hi := (hinv.stale_lease n i (h.names ▸ hi)).congr (h.content i) (h.creator i)
  holds t ha hh := by
    have hmine : LockMine t s := by
      rcases hholding t hh with hold | hmine
      · exact hinv.holds t (h.base.alive ha) hold
      · exact hmine
    obtain ⟨i, hi, hc⟩ := hmine
    exact ⟨i, by rwa [h.names], (h.creator i).trans hc⟩

theorem event_keeps {e : Event} {s s' : LeaseState} (hinv : Inv calls s) (he : (machine calls).event e s = some s') :
    Inv calls s' ∧ ∀ thread, Rely calls strict thread s s' := by
  have hframe : Frame s s' ∧ s'.seen = s.seen ∧ s'.holding = s.holding ∧
      s'.releasing = s.releasing ∧ s'.file = s.file := by
    cases e with
    | tick ms =>
      simp only [machine, event, Option.some.injEq] at he
      subst he
      exact ⟨⟨fun _ h => h, rfl, rfl, rfl, rfl, rfl, rfl, fun _ => rfl, fun _ => rfl⟩, rfl, rfl, rfl, rfl⟩
    | die pid =>
      simp only [machine, event, Option.some.injEq] at he
      subst he
      refine ⟨⟨fun p hp => ?_, rfl, rfl, rfl, rfl, rfl, rfl, fun _ => rfl, fun _ => rfl⟩, rfl, rfl, rfl, rfl⟩
      by_cases hpid : p = pid
      · simp [hpid]
      · simpa [hpid] using hp
  obtain ⟨hframe, hseen, hholding, hreleasing, hfile⟩ := hframe
  exact ⟨hframe.inv hinv fun t ht => .inl (hholding ▸ ht), fun thread => ⟨hframe.base, fun t _ =>
    hframe.own (by rw [hseen]) (by rw [hholding]) (by rw [hreleasing]) fun _ _ i _ => by rw [hfile]⟩⟩

section Effects

variable {t : CallId} {s : LeaseState}

theorem guarantee_self {thread : Thread} (hinv : Inv calls s) : (discipline calls strict).Guarantee thread s s :=
  ⟨hinv, fun u _ => Rely.refl u s⟩

/-- A thread changes its own marks, its process's table or the words it shares with its call. -/
theorem guarantee_frame {thread : Thread} {s' : LeaseState} (hinv : Inv calls s) (h : Frame s s') (hfile : s'.file =
    s.file) (hreleasing : ∀ u, thread ≠ .call u → s'.releasing u = s.releasing u) (hseen : ∀ u, thread ≠ .call u →
    s'.seen u = s.seen u) (hother : ∀ u, thread ≠ .call u → s'.holding u = s.holding u) (hholding : ∀ u, s'.holding u =
    true → s.holding u = true ∨ LockMine u s) : (discipline calls strict).Guarantee thread s s' := by
  refine ⟨h.inv hinv hholding, fun u hu => ⟨h.base, ?_⟩⟩
  rintro w rfl
  exact h.own (hseen w hu.symm) (hother w hu.symm) (hreleasing w hu.symm)
    fun _ _ i _ => by rw [hfile]

/-- A heartbeat renews the time of its own call's file, and not while that call releases. -/
theorem guarantee_futimes {thread : Thread} {fd mtimeMs : Nat} (hinv : Inv calls s)
    (hown : strict → ∀ u, (s.file fd).creator = u → thread ≠ .call u → s.releasing u = false) :
    (discipline calls strict).Guarantee thread s
      (s.setFile fd { s.file fd with mtimeMs }) := by
  have hframe : Frame s (s.setFile fd { s.file fd with mtimeMs }) := by
    refine ⟨fun _ h => h, rfl, rfl, rfl, rfl, rfl, rfl, fun i => ?_, fun i => ?_⟩ <;>
      by_cases hi : i = fd <;> simp [LeaseState.setFile, hi]
  refine ⟨hframe.inv hinv fun _ h => .inl h, fun u hu => ⟨hframe.base, ?_⟩⟩
  rintro w rfl
  refine hframe.own rfl rfl rfl fun hs hr i hc => ?_
  have hi : i ≠ fd := by
    rintro rfl
    simp [hown hs w hc hu.symm] at hr
  simp [LeaseState.setFile, hi]

theorem guarantee_drawUuid (hinv : Inv calls s) : (discipline calls strict).Guarantee (.call t) s (s.drawUuid t) := by
  have hdrawn : ∀ n, n < s.nextUuid → (s.drawUuid t).drawnBy n = s.drawnBy n := fun n hlt => by
    simp [LeaseState.drawUuid, hlt.ne]
  refine ⟨⟨hinv.names_lt, hinv.used, fun name n hn hle => hinv.fresh name n hn
    (Nat.le_of_succ_le hle), hinv.init, hinv.records, hinv.lock_lease, hinv.stale_lease,
    hinv.holds⟩, fun u _ => ⟨⟨fun _ h => h, le_refl _, Nat.le_succ _, fun _ _ => rfl,
    fun _ _ => .inl rfl, fun _ _ h _ => h, fun _ h _ => h, hdrawn, fun _ h => h,
    fun _ _ _ _ _ h => h⟩, ?_⟩⟩
  rintro w -
  exact ⟨rfl, rfl, rfl, rfl, fun _ _ _ _ _ => rfl, fun _ _ h hc => ⟨h, hc⟩,
    fun _ _ h => ⟨h.name, h.creator, h.content⟩, fun _ _ _ _ h => h, fun _ h => h,
    fun _ _ _ _ _ h hc => ⟨h, hc⟩, fun _ _ _ _ _ _ _ => rfl⟩

/-! ## Steps that bind or unbind a name -/

/-- What call `w` asks of another call's step that makes `name` name `target`. -/
structure Respects (w : CallId) (s : LeaseState) (name : Name) (target : Option Nat) : Prop where
  lock : name = .lock → ∀ i, s.names .lock = some i →
    (s.file i).creator ≠ w ∧ ∀ j, ¬ FenceMine w j s
  carried : name = .lock → ∀ i, target = some i → (s.file i).creator ≠ w
  fence : name = .fence → ∀ i, ¬ FenceMine w i s
  stale : ∀ n i, name = .stale n → s.names (.stale n) = some i → (s.file i).creator = w →
    s.drawnBy n ≠ w

theorem setName_names {name other : Name} {target : Option Nat} :
    (s.setName name target).names other = if other = name then target else s.names other := rfl

theorem base_setName {name : Name} {target : Option Nat}
    (hbind : target = none ∨ name ≠ .fence ∧ s.used name = false ∨ name = .lock) :
    Base s (s.setName name target) where
  dead _ h := h
  next_le := le_refl _
  uuid_le := le_refl _
  creator _ _ := rfl
  content _ _ := .inl rfl
  init_old _ _ h _ := h
  fence_old i hi _ := by
    by_cases hname : Name.fence = name
    · rcases hbind with rfl | ⟨hne, -⟩ | rfl
      · simp [setName_names, hname] at hi
      · exact absurd hname.symm hne
      · cases hname
    · simpa [setName_names, hname] using hi
  drawn _ _ := rfl
  used other hu := by
    by_cases hother : other = name
    · subst hother
      simp [LeaseState.setName, hu]
    · simpa [LeaseState.setName, hother] using hu
  rebind other n i hn hu hi := by
    by_cases hother : other = name
    · subst hother
      rcases hbind with rfl | ⟨-, hfree⟩ | rfl
      · simp [setName_names] at hi
      · simp [hu] at hfree
      · simp [Name.uuid] at hn
    · simpa [setName_names, hother] using hi

theorem own_setName {w : CallId} {name : Name} {target : Option Nat}
    (hdrawn : ∀ n, name.uuid = some n → target.isSome → s.drawnBy n ≠ w)
    (h : calls.alive s w = true → Respects w s name target) :
    Own calls strict w s (s.setName name target) where
  seen := rfl
  holding := rfl
  releasing := rfl
  initialising := rfl
  unused other n hn _ hd := by
    by_cases hother : other = name
    · subst hother
      cases htarget : target with
      | none => simp [LeaseState.setName]
      | some i => exact absurd hd (hdrawn n hn (by simp [htarget]))
    · simp [LeaseState.setName, hother]
  lock ha i hi hc := by
    by_cases hname : Name.lock = name
    · exact absurd hc ((h ha).lock hname.symm i hi).1
    · exact ⟨by simpa [setName_names, hname] using hi, hc⟩
  fence ha i hf := by
    by_cases hname : Name.fence = name
    · exact absurd hf ((h ha).fence hname.symm i)
    · exact ⟨by simpa [setName_names, hname] using hf.name, hf.creator, hf.content⟩
  fenced ha i j hf hi := by
    by_cases hname : Name.lock = name
    · exact absurd hf (((h ha).lock hname.symm i hi).2 j)
    · simpa [setName_names, hname] using hi
  notCarried ha hn i hi := by
    by_cases hname : Name.lock = name
    · have hi' : target = some i := by simpa [setName_names, hname] using hi
      exact (h ha).carried hname.symm i hi'
    · exact hn i (by simpa [setName_names, hname] using hi)
  stale ha n i _ hd hi hc := by
    by_cases hname : Name.stale n = name
    · exact absurd hd ((h ha).stale n i hname.symm hi hc)
    · exact ⟨by simpa [setName_names, hname] using hi, hc⟩
  frozen _ _ _ _ _ _ _ := rfl

theorem inv_setName {name : Name} {target : Option Nat} (hinv : Inv calls s)
    (hlt : ∀ i, target = some i → i < s.nextInode)
    (hfresh : ∀ n, name.uuid = some n → target.isSome → n < s.nextUuid)
    (hlease : ∀ i, target = some i → name = .lock ∨ (∃ n, name = .stale n) →
      (s.file i).IsLease calls)
    (hholds : name = .lock → ∀ w, calls.alive s w = true → s.holding w = true →
      ∃ i, target = some i ∧ (s.file i).creator = w) :
    Inv calls (s.setName name target) where
  names_lt other i hi := by
    by_cases hother : other = name
    · exact hlt i (by simpa [setName_names, hother] using hi)
    · exact hinv.names_lt other i (by simpa [setName_names, hother] using hi)
  used other i hi := by
    by_cases hother : other = name
    · have htarget : target = some i := by simpa [setName_names, hother] using hi
      simp [LeaseState.setName, hother, htarget]
    · have := hinv.used other i (by simpa [setName_names, hother] using hi)
      simpa [LeaseState.setName, hother] using this
  fresh other n hn hle := by
    have hold := hinv.fresh other n hn hle
    by_cases hother : other = name
    · subst hother
      cases htarget : target with
      | none => simpa [LeaseState.setName] using hold
      | some i => exact absurd (hfresh n hn (by simp [htarget])) (not_lt.mpr hle)
    · simpa [LeaseState.setName, hother] using hold
  init := hinv.init
  records := hinv.records
  lock_lease i hi := by
    by_cases hname : Name.lock = name
    · exact hlease i (by simpa [setName_names, hname] using hi) (.inl hname.symm)
    · exact hinv.lock_lease i (by simpa [setName_names, hname] using hi)
  stale_lease n i hi := by
    by_cases hname : Name.stale n = name
    · exact hlease i (by simpa [setName_names, hname] using hi) (.inr ⟨n, hname.symm⟩)
    · exact hinv.stale_lease n i (by simpa [setName_names, hname] using hi)
  holds w ha hh := by
    by_cases hname : Name.lock = name
    · obtain ⟨i, hi, hc⟩ := hholds hname.symm w ha hh
      exact ⟨i, by simpa [setName_names, hname] using hi, hc⟩
    · obtain ⟨i, hi, hc⟩ := hinv.holds w ha hh
      exact ⟨i, by simpa [setName_names, hname] using hi, hc⟩

/-- Call `t` makes the lock path name a lease file that is its own or a dead call's. -/
theorem guarantee_publish {i : Nat} (hinv : Inv calls s) (hfree : s.names .lock = none) (hlt : i < s.nextInode) (hlease
    : (s.file i).IsLease calls) (hcreator : ∀ w, w ≠ t → calls.alive s w = true → (s.file i).creator ≠ w) : (discipline
    calls strict).Guarantee (.call t) s (s.setName .lock (some i)) := by
  refine ⟨inv_setName hinv ?_ ?_ ?_ ?_, fun u hu => ⟨base_setName (.inr (.inr rfl)), ?_⟩⟩
  · rintro _ ⟨⟩
    exact hlt
  · intro n hn
    simp [Name.uuid] at hn
  · rintro _ ⟨⟩ -
    exact hlease
  · intro _ w ha hh
    obtain ⟨j, hj, -⟩ := hinv.holds w ha hh
    simp [hfree] at hj
  · rintro w rfl
    refine own_setName (fun n hn => by simp [Name.uuid] at hn) fun ha => ⟨?_, ?_, ?_, ?_⟩
    · intro _ j hj
      simp [hfree] at hj
    · rintro - _ ⟨⟩
      exact hcreator w (fun h => hu (by rw [h])) ha
    · rintro ⟨⟩
    · rintro n j ⟨⟩

/-- Call `t` takes its own or a dead call's file away from the lock path while no other live call
has the fence. -/
theorem guarantee_detach {i : Nat} (hinv : Inv calls s) (hi : s.names .lock = some i)
    (hidle : s.holding t = false)
    (hother : ∀ w, w ≠ t → calls.alive s w = true →
      (s.file i).creator ≠ w ∧ ∀ j, ¬ FenceMine w j s) :
    (discipline calls strict).Guarantee (.call t) s (s.setName .lock none) := by
  refine ⟨inv_setName hinv (fun _ h => by cases h) (fun _ _ h => by cases h) (fun _ h => by cases h) ?_,
    fun u hu => ⟨base_setName (.inl rfl), ?_⟩⟩
  · intro _ w ha hh
    obtain ⟨j, hj, hc⟩ := hinv.holds w ha hh
    obtain rfl : i = j := Option.some.inj (hi.symm.trans hj)
    have hw : w ≠ t := by
      rintro rfl
      simp [hidle] at hh
    exact absurd hc (hother w hw ha).1
  · rintro w rfl
    refine own_setName (fun _ _ h => by cases h) fun ha => ⟨?_, ?_, ?_, ?_⟩
    · intro _ j hj
      obtain rfl : i = j := Option.some.inj (hi.symm.trans hj)
      exact hother w (fun h => hu (by rw [h])) ha
    · rintro - _ ⟨⟩
    · rintro ⟨⟩
    · rintro n j ⟨⟩

/-- The fence goes, and it was no other live call's. -/
theorem guarantee_unfence (hinv : Inv calls s) (hother : ∀ w i, w ≠ t → calls.alive s w = true → ¬ FenceMine w i s) :
    (discipline calls strict).Guarantee (.call t) s (s.setName .fence none) := by
  refine ⟨inv_setName hinv (fun _ h => by cases h) (fun _ _ h => by cases h) (fun _ h => by cases h)
    (fun h => by cases h), fun u hu => ⟨base_setName (.inl rfl), ?_⟩⟩
  rintro w rfl
  refine own_setName (fun _ _ h => by cases h) fun ha => ⟨?_, ?_, ?_, ?_⟩
  · rintro ⟨⟩
  · rintro ⟨⟩
  · intro _ i
    exact hother w i (fun h => hu (by rw [h])) ha
  · rintro n j ⟨⟩

/-- A candidate or a stale name goes, and its file was not one that a live call has set aside. -/
theorem guarantee_discard {name : Name} {n : Nat} (hinv : Inv calls s) (hname : name.uuid = some n)
    (hother : ∀ w i, w ≠ t → calls.alive s w = true → name = .stale n →
      s.names name = some i → (s.file i).creator = w → s.drawnBy n ≠ w) :
    (discipline calls strict).Guarantee (.call t) s (s.setName name none) := by
  have hlock : name ≠ .lock := by
    rintro rfl
    simp [Name.uuid] at hname
  have hfence : name ≠ .fence := by
    rintro rfl
    simp [Name.uuid] at hname
  refine ⟨inv_setName hinv (fun _ h => by cases h) (fun _ _ h => by cases h) (fun _ h => by cases h)
    (fun h => absurd h hlock), fun u hu => ⟨base_setName (.inl rfl), ?_⟩⟩
  rintro w rfl
  refine own_setName (fun _ _ h => by cases h) fun ha => ⟨fun h => absurd h hlock,
    fun h => absurd h hlock, fun h => absurd h hfence, ?_⟩
  rintro m i rfl hi hc
  obtain rfl : m = n := by simpa [Name.uuid] using hname
  exact hother w i (fun h => hu (by rw [h])) ha rfl hi hc

/-- Call `t` sets a lease file aside under a stale name that it has drawn. -/
theorem guarantee_setAside {n i : Nat} (hinv : Inv calls s) (hdrawn : s.drawnBy n = t) (hn : n < s.nextUuid) (hfree :
    s.used (.stale n) = false) (hlt : i < s.nextInode) (hlease : (s.file i).IsLease calls) : (discipline calls
    strict).Guarantee (.call t) s (s.setName (.stale n) (some i)) := by
  refine ⟨inv_setName hinv ?_ ?_ ?_ (fun h => by cases h), fun u hu =>
    ⟨base_setName (.inr (.inl ⟨by simp, hfree⟩)), ?_⟩⟩
  · rintro _ ⟨⟩
    exact hlt
  · intro m hm _
    obtain rfl : n = m := by simpa [Name.uuid] using hm
    exact hn
  · rintro _ ⟨⟩ -
    exact hlease
  · rintro w rfl
    have hw : t ≠ w := fun h => hu (by rw [h])
    refine own_setName (fun m hm _ => ?_) fun _ => ⟨?_, ?_, ?_, ?_⟩
    · obtain rfl : n = m := by simpa [Name.uuid] using hm
      rwa [hdrawn]
    · rintro ⟨⟩
    · rintro ⟨⟩
    · rintro ⟨⟩
    · rintro m j ⟨⟩ hj
      have := hinv.used _ _ hj
      simp [hfree] at this

/-! ## New files -/

/-- Call `t` creates the fence or its candidate, whose name nobody has used. -/
theorem guarantee_create {name : Name} (hinv : Inv calls s) (hfree : s.names name = none)
    (hname : name = .fence ∨ ∃ n, name = .candidate n ∧ s.drawnBy n = t ∧ n < s.nextUuid ∧
      s.used name = false) :
    (discipline calls strict).Guarantee (.call t) s (s.create t name) := by
  have hlock : Name.lock ≠ name := by
    rcases hname with rfl | ⟨n, rfl, -⟩ <;> simp
  have hstale : ∀ n, Name.stale n ≠ name := by
    rcases hname with rfl | ⟨n, rfl, -⟩ <;> simp
  have hnames : ∀ other, (s.create t name).names other =
      if other = name then some s.nextInode else s.names other := fun _ => rfl
  have hfile : ∀ i, i < s.nextInode → (s.create t name).file i = s.file i := fun i hlt => by
    simp [LeaseState.create, LeaseState.setFile, LeaseState.setInitialising, LeaseState.setName, hlt.ne]
  have hnew : (s.create t name).file s.nextInode = ⟨.unwritten, s.now, t⟩ := by
    simp [LeaseState.create, LeaseState.setFile, LeaseState.setInitialising]
  have hold : ∀ i, i ≠ s.nextInode → (s.create t name).file i = s.file i := fun i hne => by
    simp [LeaseState.create, LeaseState.setFile, LeaseState.setInitialising, LeaseState.setName, hne]
  have hinit : ∀ u, u ≠ t → (s.create t name).initialising u = s.initialising u := fun u hu => by
    simp [LeaseState.create, LeaseState.setFile, LeaseState.setInitialising, LeaseState.setName, hu]
  have hinitSelf : (s.create t name).initialising t = some s.nextInode := by
    simp [LeaseState.create, LeaseState.setInitialising]
  have hused : ∀ other, other ≠ name → (s.create t name).used other = s.used other :=
    fun other hother => by
      simp [LeaseState.create, LeaseState.setFile, LeaseState.setInitialising, LeaseState.setName, hother]
  have husedSelf : (s.create t name).used name = true := by
    simp [LeaseState.create, LeaseState.setFile, LeaseState.setInitialising, LeaseState.setName]
  have hlockName : (s.create t name).names .lock = s.names .lock := by
    rw [hnames, if_neg hlock]
  have hlockFile : ∀ i, s.names .lock = some i → (s.create t name).file i = s.file i := fun i hi =>
    hfile i (hinv.names_lt _ i hi)
  refine ⟨⟨?_, ?_, ?_, ?_, ?_, ?_, ?_, ?_⟩, fun u hu => ⟨⟨fun _ h => h, Nat.le_succ _, le_refl _,
    fun i hlt => by rw [hfile i hlt], fun i hlt => .inl (by rw [hfile i hlt]), ?_, ?_,
    fun _ _ => rfl, ?_, ?_⟩, ?_⟩⟩
  · intro other i hi
    rw [hnames] at hi
    show i < s.nextInode + 1
    split at hi
    · simp only [Option.some.injEq] at hi
      omega
    · have := hinv.names_lt other i hi
      omega
  · intro other i hi
    by_cases hother : other = name
    · rw [hother, husedSelf]
    · rw [hnames, if_neg hother] at hi
      rw [hused other hother]
      exact hinv.used other i hi
  · intro other n hn hle
    have hle' : s.nextUuid ≤ n := hle
    by_cases hother : other = name
    · subst hother
      rcases hname with rfl | ⟨m, rfl, -, hlt, -⟩
      · simp [Name.uuid] at hn
      · obtain rfl : m = n := by simpa [Name.uuid] using hn
        exact absurd hlt (not_lt.mpr hle')
    · rw [hused other hother]
      exact hinv.fresh other n hn hle'
  · intro u i hi
    by_cases hu : u = t
    · subst hu
      obtain rfl : s.nextInode = i := by simpa [hinitSelf] using hi
      rw [hnew]
      exact ⟨Nat.lt_succ_self _, rfl, rfl⟩
    · rw [hinit u hu] at hi
      obtain ⟨hlt, hrest⟩ := hinv.init u i hi
      rw [hfile i hlt]
      exact ⟨Nat.lt_succ_of_lt hlt, hrest⟩
  · intro i r hr
    by_cases hi : i = s.nextInode
    · subst hi
      simp [hnew] at hr
    · rw [hold i hi] at hr ⊢
      exact hinv.records i r hr
  · intro i hi
    rw [hlockName] at hi
    rw [hlockFile i hi]
    exact hinv.lock_lease i hi
  · intro n i hi
    rw [hnames, if_neg (hstale n)] at hi
    rw [hfile i (hinv.names_lt _ i hi)]
    exact hinv.stale_lease n i hi
  · intro w ha hh
    obtain ⟨i, hi, hc⟩ := hinv.holds w ha hh
    exact ⟨i, by rw [hlockName, hi], by rw [hlockFile i hi, hc]⟩
  · intro u i hi hlt
    by_cases hu : u = t
    · subst hu
      rw [hinitSelf, Option.some.injEq] at hi
      omega
    · rwa [hinit u hu] at hi
  · intro i hi hlt
    rw [hnames] at hi
    split at hi
    · simp only [Option.some.injEq] at hi
      omega
    · exact hi
  · intro other hu
    by_cases hother : other = name
    · rw [hother, husedSelf]
    · rwa [hused other hother]
  · intro other n i hn hu hi
    by_cases hother : other = name
    · subst hother
      rcases hname with rfl | ⟨m, rfl, -, -, hunused⟩
      · simp [Name.uuid] at hn
      · simp [hunused] at hu
    · rwa [hnames, if_neg hother] at hi
  · rintro w rfl
    have hw : w ≠ t := fun h => hu (by rw [h])
    refine ⟨rfl, rfl, rfl, hinit w hw, ?_, ?_, ?_, ?_, ?_, ?_, ?_⟩
    · intro other n hn _ hd
      refine hused other ?_
      rintro rfl
      rcases hname with rfl | ⟨m, rfl, hd', -⟩
      · simp [Name.uuid] at hn
      · obtain rfl : m = n := by simpa [Name.uuid] using hn
        exact hw (hd.symm.trans hd')
    · intro _ i hi hc
      exact ⟨by rw [hlockName, hi], by rw [hlockFile i hi, hc]⟩
    · intro _ i hf
      have hne : Name.fence ≠ name := by
        rintro rfl
        simp [hf.name] at hfree
      refine ⟨by rw [hnames, if_neg hne, hf.name], ?_, ?_⟩
      · rw [hfile i (hinv.names_lt _ i hf.name)]
        exact hf.creator
      · rw [hfile i (hinv.names_lt _ i hf.name), hinit w hw]
        exact hf.content
    · intro _ i j _ hi
      rw [hlockName, hi]
    · intro _ hn i hi
      rw [hlockName] at hi
      rw [hlockFile i hi]
      exact hn i hi
    · intro _ n i _ _ hi hc
      exact ⟨by rw [hnames, if_neg (hstale n), hi], by rw [hfile i (hinv.names_lt _ i hi), hc]⟩
    · intro _ _ i r hlt _ _
      exact hfile i hlt

/-- The caller's own unfinished file gets its bytes. -/
theorem guarantee_write {fd : Nat} {content : LeaseContent} (hinv : Inv calls s) (hinit : s.initialising t = some fd)
    (hcontent : ∀ r, content = .record r → Written calls t r) : (discipline calls strict).Guarantee (.call t) s (s.write
    t fd content) := by
  obtain ⟨hfd, hunwritten, hcreator⟩ := hinv.init t fd hinit
  have hother : ∀ i, i ≠ fd → (s.write t fd content).file i = s.file i := fun i hi => by
    simp [LeaseState.write, LeaseState.setFile, LeaseState.setInitialising, hi]
  have hself : (s.write t fd content).file fd = { s.file fd with content, mtimeMs := s.now } := by
    simp [LeaseState.write, LeaseState.setFile, LeaseState.setInitialising]
  have hcreators : ∀ i, ((s.write t fd content).file i).creator = (s.file i).creator := fun i => by
    by_cases hi : i = fd
    · subst hi
      rw [hself]
    · rw [hother i hi]
  have hinitOther : ∀ u, u ≠ t → (s.write t fd content).initialising u = s.initialising u :=
    fun u hu => by simp [LeaseState.write, LeaseState.setFile, LeaseState.setInitialising, hu]
  have hinitSelf : (s.write t fd content).initialising t = none := by
    simp [LeaseState.write, LeaseState.setInitialising]
  have hlease : ∀ i, (s.file i).IsLease calls → (s.write t fd content).file i = s.file i :=
    fun i ⟨r, hr, _⟩ => by
      refine hother i ?_
      rintro rfl
      simp [hunwritten] at hr
  refine ⟨⟨hinv.names_lt, hinv.used, hinv.fresh, ?_, ?_, ?_, ?_, ?_⟩, fun u hu => ⟨⟨fun _ h => h,
    le_refl _, le_refl _, fun i _ => hcreators i, ?_, ?_, fun _ h _ => h, fun _ _ => rfl, fun _ h => h,
    fun _ _ _ _ _ h => h⟩, ?_⟩⟩
  · intro u i hi
    have hu : u ≠ t := by
      rintro rfl
      rw [hinitSelf] at hi
      cases hi
    rw [hinitOther u hu] at hi
    obtain ⟨hlt, hc, hcr⟩ := hinv.init u i hi
    have hne : i ≠ fd := by
      rintro rfl
      exact hu (hcr.symm.trans hcreator)
    rw [hother i hne]
    exact ⟨hlt, hc, hcr⟩
  · intro i r hr
    rw [hcreators]
    by_cases hi : i = fd
    · subst hi
      rw [hself] at hr
      rw [hcreator]
      exact hcontent r hr
    · rw [hother i hi] at hr
      exact hinv.records i r hr
  · intro i hi
    rw [hlease i (hinv.lock_lease i hi)]
    exact hinv.lock_lease i hi
  · intro n i hi
    rw [hlease i (hinv.stale_lease n i hi)]
    exact hinv.stale_lease n i hi
  · intro w ha hh
    obtain ⟨i, hi, hc⟩ := hinv.holds w ha hh
    exact ⟨i, hi, (hcreators i).trans hc⟩
  · intro i _
    by_cases hi : i = fd
    · subst hi
      exact .inr ⟨t, hinit⟩
    · exact .inl (by rw [hother i hi])
  · intro v i hi _
    by_cases hv : v = t
    · subst hv
      rw [hinitSelf] at hi
      cases hi
    · rwa [hinitOther v hv] at hi
  · rintro w rfl
    have hw : w ≠ t := fun h => hu (by rw [h])
    refine ⟨rfl, rfl, rfl, hinitOther w hw, fun _ _ _ _ _ => rfl, ?_, ?_, fun _ _ _ _ h => h, ?_, ?_, ?_⟩
    · intro _ i hi hc
      exact ⟨hi, (hcreators i).trans hc⟩
    · intro _ i hf
      have hne : i ≠ fd := by
        rintro rfl
        exact hw (hf.creator.symm.trans hcreator)
      refine ⟨hf.name, (hcreators i).trans hf.creator, ?_⟩
      rw [hother i hne, hinitOther w hw]
      exact hf.content
    · intro _ hn i hi
      rw [hcreators]
      exact hn i hi
    · intro _ n i _ _ hi hc
      exact ⟨hi, (hcreators i).trans hc⟩
    · intro _ _ i r _ hc _
      refine hother i ?_
      rintro rfl
      exact hw (hc.symm.trans hcreator)

/-- The write of the owner record failed before its first byte. -/
theorem guarantee_abandon (hinv : Inv calls s) :
    (discipline calls strict).Guarantee (.call t) s (s.setInitialising t none) := by
  have hinitOther : ∀ u, u ≠ t → (s.setInitialising t none).initialising u = s.initialising u :=
    fun u hu => by simp [LeaseState.setInitialising, hu]
  have hinitSelf : (s.setInitialising t none).initialising t = none := by
    simp [LeaseState.setInitialising]
  have hback : ∀ u i, (s.setInitialising t none).initialising u = some i →
      s.initialising u = some i := by
    intro u i hi
    by_cases hu : u = t
    · subst hu
      rw [hinitSelf] at hi
      cases hi
    · rwa [hinitOther u hu] at hi
  refine ⟨⟨hinv.names_lt, hinv.used, hinv.fresh, fun u i hi => hinv.init u i (hback u i hi),
    hinv.records, hinv.lock_lease, hinv.stale_lease, hinv.holds⟩, fun u hu => ⟨⟨fun _ h => h,
    le_refl _, le_refl _, fun _ _ => rfl, fun _ _ => .inl rfl, fun v i hi _ => hback v i hi,
    fun _ h _ => h, fun _ _ => rfl, fun _ h => h, fun _ _ _ _ _ h => h⟩, ?_⟩⟩
  rintro w rfl
  have hw : w ≠ t := fun h => hu (by rw [h])
  refine ⟨rfl, rfl, rfl, hinitOther w hw, fun _ _ _ _ _ => rfl, fun _ _ h hc => ⟨h, hc⟩, ?_,
    fun _ _ _ _ h => h, fun _ h => h, fun _ _ _ _ _ h hc => ⟨h, hc⟩, fun _ _ _ _ _ _ _ => rfl⟩
  intro _ i hf
  exact ⟨hf.name, hf.creator, by rw [hinitOther w hw]; exact hf.content⟩

end Effects

end RabiRoute.Lease
