import RabiRoute.Manager.DurableDeliveryProtocol
import RabiRoute.Interleave.RelyGuarantee

/-!
# What the calls of a durable delivery leave each other

A thread with the mutation lock finds the receipt unchanged until it releases the lock, a completed
receipt stays, and every create of the receipt is paid for: by the first free path or by a removal.
-/

open Interleave Interleave.Program

namespace RabiRoute.DurableDelivery

variable {R : Type} {calls : Calls R}

/-- The sum of a counter over the calls of the run. -/
def total (calls : Calls R) (f : CallId → Nat) : Nat :=
  ∑ t ∈ Finset.range calls.count, f t

theorem total_bump (f : CallId → Nat) {t : CallId} (ht : t < calls.count) :
    total calls (fun u => if u = t then f u + 1 else f u) = total calls f + 1 := by
  have hsplit : ∀ u, (if u = t then f u + 1 else f u) = f u + if u = t then 1 else 0 := by
    intro u
    split <;> rfl
  simp only [total, hsplit, Finset.sum_add_distrib, Finset.sum_ite_eq', Finset.mem_range, ht, if_true]

/-- The receipt path names file `i`, which holds this receipt. -/
def Holds (s : DeliveryState R) (i : Nat) (r : Receipt R) : Prop :=
  s.path = some i ∧ (s.file i).content = .record r

theorem stored_eq_some {s : DeliveryState R} {r : Receipt R} : s.stored = some r ↔ ∃ i, Holds s i r := by
  unfold DeliveryState.stored Holds
  cases hpath : s.path with
  | none => simp
  | some i =>
    cases hcontent : (s.file i).content <;> simp [hcontent]

theorem Holds.stored {s : DeliveryState R} {i : Nat} {r : Receipt R} (h : Holds s i r) : s.stored = some r :=
  stored_eq_some.mpr ⟨i, h⟩

/-- What the counts of a call say about its callbacks. -/
structure Counts (calls : Calls R) (t : CallId) (s : DeliveryState R) : Prop where
  /-- A call sends once for its reservation and once for each verdict to retry. -/
  sends : s.delivers t ≤ s.creates t + s.retries t
  removes : s.removals t ≤ s.rejections t
  recovers : calls.hasRecover t = false → s.retries t = 0
  rejects : calls.hasRetryableRejection t = false → s.rejections t = 0

structure Inv (calls : Calls R) (s : DeliveryState R) : Prop where
  path_lt : ∀ i, s.path = some i → i < s.nextInode
  init : ∀ t i, s.initialising t = some i → s.path = some i ∧ (s.file i).content = .unwritten
  init_inj : ∀ t u i, s.initialising t = some i → s.initialising u = some i → t = u
  counts : ∀ t, Counts calls t s
  /-- Receipts are made on a free path only, and a path gets free by a removal only. -/
  paid : total calls s.creates ≤ total calls s.removals + (if s.path.isSome then 1 else 0)
  licensed : s.trespass = false

/-- What every thread may assume of the others. -/
structure Base (s s' : DeliveryState R) : Prop where
  dead : ∀ h p, s.dead h p = true → s'.dead h p = true
  terminated : ∀ t, (s.control t).terminated = true → (s'.control t).terminated = true
  observed : ∀ t, s.observed t = true → s'.observed t = true
  final : ∀ i r, Holds s i r → r.state = .completed → Holds s' i r

/-- The marks of a call are where they were. -/
structure Marks (t : CallId) (s s' : DeliveryState R) : Prop where
  initialising : s'.initialising t = s.initialising t
  executing : s'.executing t = s.executing t
  rejection : s'.rejection t = s.rejection t
  creates : s'.creates t = s.creates t
  delivers : s'.delivers t = s.delivers t
  retries : s'.retries t = s.retries t
  rejections : s'.rejections t = s.rejections t
  removals : s'.removals t = s.removals t

structure Rely (calls : Calls R) (thread : Thread) (s s' : DeliveryState R) : Prop where
  base : Base s s'
  lock : runs calls s' thread = true → s.lock = some thread → s'.lock = some thread
  /-- Under the lock the receipt stays, and once written its file does not change. -/
  path : runs calls s' thread = true → s.lock = some thread → ∀ i, s.path = some i →
    s'.path = some i
  file : runs calls s' thread = true → s.lock = some thread → ∀ i r, Holds s i r → s'.file i = s.file i
  marks : ∀ t, thread = .call t → Marks t s s'

theorem Base.refl (s : DeliveryState R) : Base s s :=
  ⟨fun _ _ h => h, fun _ h => h, fun _ h => h, fun _ _ h _ => h⟩

theorem Base.trans {s s' s'' : DeliveryState R} (h : Base s s') (h' : Base s' s'') : Base s s'' :=
  ⟨fun a p hd => h'.dead a p (h.dead a p hd), fun t ht => h'.terminated t (h.terminated t ht),
    fun t ht => h'.observed t (h.observed t ht), fun i r hi hr => h'.final i r (h.final i r hi hr) hr⟩

theorem Base.runs {s s' : DeliveryState R} (h : Base s s') {thread : Thread}
    (hr : runs calls s' thread = true) : runs calls s thread = true := by
  have halive : ∀ t, calls.alive s' t = true → calls.alive s t = true := by
    intro t ht
    simp only [Calls.alive, Bool.not_eq_true'] at *
    by_contra hdead
    simp [h.dead _ _ (by simpa using hdead)] at ht
  cases thread with
  | call t => exact halive t hr
  | heartbeat t =>
    simp only [DurableDelivery.runs, Bool.and_eq_true, Bool.not_eq_true'] at *
    refine ⟨halive t hr.1, ?_⟩
    by_contra hterminated
    simp [h.terminated t (by simpa using hterminated)] at hr

theorem Marks.refl (t : CallId) (s : DeliveryState R) : Marks t s s :=
  ⟨rfl, rfl, rfl, rfl, rfl, rfl, rfl, rfl⟩

theorem Marks.trans {t : CallId} {s s' s'' : DeliveryState R} (h : Marks t s s')
    (h' : Marks t s' s'') : Marks t s s'' :=
  ⟨h'.1.trans h.1, h'.2.trans h.2, h'.3.trans h.3, h'.4.trans h.4, h'.5.trans h.5, h'.6.trans h.6,
    h'.7.trans h.7, h'.8.trans h.8⟩

theorem Marks.counts {t : CallId} {s s' : DeliveryState R} (h : Marks t s s')
    (hc : Counts calls t s) : Counts calls t s' := by
  refine ⟨?_, ?_, ?_, ?_⟩
  · rw [h.delivers, h.creates, h.retries]
    exact hc.sends
  · rw [h.removals, h.rejections]
    exact hc.removes
  · rw [h.retries]
    exact hc.recovers
  · rw [h.rejections]
    exact hc.rejects

theorem Rely.held {thread : Thread} {s s' : DeliveryState R} (h : Rely calls thread s s') (hr : runs calls s' thread =
    true) (hl : s.lock = some thread) (i : Nat) (r : Receipt R) (hi : Holds s i r) : Holds s' i r := by
  refine ⟨h.path hr hl i hi.1, ?_⟩
  rw [h.file hr hl i r hi]
  exact hi.2

theorem Rely.refl (thread : Thread) (s : DeliveryState R) : Rely calls thread s s :=
  ⟨Base.refl s, fun _ h => h, fun _ _ _ h => h, fun _ _ _ _ _ => rfl, fun t _ => Marks.refl t s⟩

theorem Rely.trans {thread : Thread} {s s' s'' : DeliveryState R} (h : Rely calls thread s s')
    (h' : Rely calls thread s' s'') : Rely calls thread s s'' where
  base := h.base.trans h'.base
  lock hr hl := h'.lock hr (h.lock (h'.base.runs hr) hl)
  path hr hl i hi :=
    h'.path hr (h.lock (h'.base.runs hr) hl) i (h.path (h'.base.runs hr) hl i hi)
  file hr hl i r hi :=
    (h'.file hr (h.lock (h'.base.runs hr) hl) i r (h.held (h'.base.runs hr) hl i r hi)).trans
      (h.file (h'.base.runs hr) hl i r hi)
  marks t ht := (h.marks t ht).trans (h'.marks t ht)

def discipline (calls : Calls R) : Discipline (DeliveryState R) Thread :=
  ⟨Inv calls, Rely calls, Rely.refl, fun _ _ _ _ ↦ Rely.trans⟩

/-! ## Steps that leave the receipt alone -/

/-- The receipt, the lock and the calls' part in them are the same. -/
structure Frame (s s' : DeliveryState R) : Prop where
  dead : ∀ h p, s.dead h p = true → s'.dead h p = true
  terminated : ∀ t, (s.control t).terminated = true → (s'.control t).terminated = true
  observed : ∀ t, s.observed t = true → s'.observed t = true
  path : s'.path = s.path
  content : ∀ i, (s'.file i).content = (s.file i).content
  nextInode : s'.nextInode = s.nextInode
  initialising : s'.initialising = s.initialising
  executing : s'.executing = s.executing
  creates : s'.creates = s.creates
  removals : s'.removals = s.removals
  trespass : s'.trespass = s.trespass

theorem Frame.refl (s : DeliveryState R) : Frame s s :=
  ⟨fun _ _ h => h, fun _ h => h, fun _ h => h, rfl, fun _ => rfl, rfl, rfl, rfl, rfl, rfl, rfl⟩

theorem Frame.holds {s s' : DeliveryState R} (h : Frame s s') {i : Nat} {r : Receipt R} :
    Holds s' i r ↔ Holds s i r := by
  unfold Holds
  rw [h.path, h.content]

theorem Frame.base {s s' : DeliveryState R} (h : Frame s s') : Base s s' :=
  ⟨h.dead, h.terminated, h.observed, fun _ _ hi _ => h.holds.mpr hi⟩

theorem Frame.inv {s s' : DeliveryState R} (h : Frame s s') (hinv : Inv calls s)
    (hcounts : ∀ t, Counts calls t s') : Inv calls s' where
  path_lt i hi := by
    rw [h.nextInode]
    exact hinv.path_lt i (h.path ▸ hi)
  init t i hi := by
    rw [h.path, h.content]
    exact hinv.init t i (h.initialising ▸ hi)
  init_inj t u i hi hj := hinv.init_inj t u i (h.initialising ▸ hi) (h.initialising ▸ hj)
  counts := hcounts
  paid := by
    rw [h.creates, h.removals, h.path]
    exact hinv.paid
  licensed := h.trespass.trans hinv.licensed

theorem Frame.rely {s s' : DeliveryState R} (h : Frame s s') {thread : Thread} (hlock : runs calls s' thread = true →
    s.lock = some thread → s'.lock = some thread) (hfile : s.lock = some thread → s'.file = s.file) (hmarks : ∀ t,
    thread = .call t → Marks t s s') : Rely calls thread s s' :=
  ⟨h.base, hlock, fun _ _ _ hi => by rwa [h.path], fun _ hl i _ _ => congrFun (hfile hl) i, hmarks⟩

theorem event_keeps {e : Event} {s s' : DeliveryState R} (hinv : Inv calls s) (he : (machine calls).event e s = some s')
    : Inv calls s' ∧ ∀ thread, Rely calls thread s s' := by
  have hsame : Frame s s' ∧ s' = { s with now := s'.now, dead := s'.dead } := by
    cases e with
    | tick ms =>
      simp only [machine, event, Option.some.injEq] at he
      subst he
      exact ⟨⟨fun _ _ h => h, fun _ h => h, fun _ h => h, rfl, fun _ => rfl, rfl, rfl, rfl, rfl, rfl, rfl⟩, rfl⟩
    | die host pid =>
      simp only [machine, event, Option.some.injEq] at he
      subst he
      refine ⟨⟨fun h p hd => ?_, fun _ h => h, fun _ h => h, rfl, fun _ => rfl, rfl, rfl, rfl, rfl, rfl, rfl⟩, rfl⟩
      show (if h = host ∧ p = pid then true else s.dead h p) = true
      split
      · rfl
      · exact hd
  obtain ⟨hframe, hs'⟩ := hsame
  rw [hs'] at hframe ⊢
  have hmarks : ∀ t, Marks t s { s with now := s'.now, dead := s'.dead } :=
    fun _ => ⟨rfl, rfl, rfl, rfl, rfl, rfl, rfl, rfl⟩
  exact ⟨hframe.inv hinv fun t => (hmarks t).counts (hinv.counts t),
    fun thread => hframe.rely (fun _ h => h) (fun _ => rfl) fun t _ => hmarks t⟩

section Effects

variable {thread : Thread} {t : CallId} {s : DeliveryState R}

theorem guarantee_self (hinv : Inv calls s) : (discipline calls).Guarantee thread s s :=
  ⟨hinv, fun u _ => Rely.refl u s⟩

/-- A step that changes only what its own call counts and marks. -/
theorem guarantee_frame {s' : DeliveryState R} (hinv : Inv calls s) (h : Frame s s') (hlock : s'.lock = s.lock) (hfile :
    s'.file = s.file) (hcounts : ∀ t, thread = .call t → Counts calls t s') (hmarks : ∀ t, thread ≠ .call t → Marks t s
    s') : (discipline calls).Guarantee thread s s' := by
  have hall : ∀ t, Counts calls t s' := by
    intro t
    by_cases ht : thread = .call t
    · exact hcounts t ht
    · exact (hmarks t ht).counts (hinv.counts t)
  exact ⟨h.inv hinv hall, fun u hu => h.rely (fun _ hl => hlock.trans hl) (fun _ => hfile)
    fun t ht => hmarks t (by rw [← ht]; exact hu.symm)⟩

/-- The lock changes hands; nobody who runs loses it. -/
theorem guarantee_lock {holder : Option Thread} (hinv : Inv calls s)
    (hkeeps : ∀ u, u ≠ thread → runs calls s u = true → s.lock = some u → holder = some u) :
    (discipline calls).Guarantee thread s { s with lock := holder } := by
  have hframe : Frame s { s with lock := holder } :=
    ⟨fun _ _ h => h, fun _ h => h, fun _ h => h, rfl, fun _ => rfl, rfl, rfl, rfl, rfl, rfl, rfl⟩
  have hmarks : ∀ t, Marks t s { s with lock := holder } := fun _ => ⟨rfl, rfl, rfl, rfl, rfl, rfl, rfl, rfl⟩
  exact ⟨hframe.inv hinv fun t => (hmarks t).counts (hinv.counts t),
    fun u hu => hframe.rely (fun hr hl => hkeeps u hu hr hl) (fun _ => rfl) fun t _ => hmarks t⟩

/-! ## Steps that change the receipt -/

theorem guarantee_create (hinv : Inv calls s) (ht : t < calls.count) (hfree : s.path = none) (hfresh : s.executing t =
    false) : (discipline calls).Guarantee (.call t) s (s.create t) := by
  have hinit : ∀ u i, s.initialising u = some i → False := by
    intro u i hi
    have := (hinv.init u i hi).1
    simp [hfree] at this
  refine ⟨⟨fun i hi => ?_, fun u i hi => ?_, fun u w i hi hj => ?_, fun u => ?_, ?_, ?_⟩,
    fun u hu => ⟨⟨fun _ _ h => h, fun _ h => h, fun _ h => h, fun i r hi _ => ?_⟩, fun _ h => h,
      fun _ _ i hi => ?_, fun _ _ i r hi => ?_, ?_⟩⟩
  · obtain rfl : s.nextInode = i := by simpa [DeliveryState.create, DeliveryState.setExecuting,
      DeliveryState.note, DeliveryState.countCreate, DeliveryState.setInitialising,
      DeliveryState.setFile] using hi
    exact Nat.lt_succ_self _
  · have hi' : (if u = t then some s.nextInode else s.initialising u) = some i := hi
    split at hi'
    · obtain rfl : s.nextInode = i := Option.some.inj hi'
      exact ⟨rfl, by simp [DeliveryState.create, DeliveryState.setExecuting, DeliveryState.note,
        DeliveryState.countCreate, DeliveryState.setInitialising, DeliveryState.setFile]⟩
    · exact (hinit u i hi').elim
  · have hi' : (if u = t then some s.nextInode else s.initialising u) = some i := hi
    have hj' : (if w = t then some s.nextInode else s.initialising w) = some i := hj
    split at hi'
    · split at hj'
      · simp [*]
      · exact (hinit w i hj').elim
    · exact (hinit u i hi').elim
  · obtain ⟨hsends, hremoves, hrecovers, hrejects⟩ := hinv.counts u
    refine ⟨?_, hremoves, hrecovers, hrejects⟩
    show s.delivers u ≤ (if u = t then s.creates u + 1 else s.creates u) + s.retries u
    split <;> omega
  · show total calls (fun u => if u = t then s.creates u + 1 else s.creates u) ≤
      total calls s.removals + 1
    have := hinv.paid
    rw [total_bump _ ht]
    simp only [hfree, Option.isSome_none, Bool.false_eq_true, if_false] at this
    omega
  · show (s.trespass || !(!s.executing t)) = false
    simp [hinv.licensed, hfresh]
  · simp [Holds, hfree] at hi
  · simp [hfree] at hi
  · simp [Holds, hfree] at hi
  · rintro w rfl
    have hw : w ≠ t := fun h => hu (by rw [h])
    refine ⟨?_, ?_, rfl, ?_, rfl, rfl, rfl, rfl⟩ <;>
      simp [DeliveryState.create, DeliveryState.setExecuting, DeliveryState.note,
        DeliveryState.countCreate, DeliveryState.setInitialising, DeliveryState.setFile, hw]

theorem init_elsewhere {i : Nat} {r : Receipt R} (hinv : Inv calls s) (hi : Holds s i r) (u : CallId)
    (j : Nat) : s.initialising u ≠ some j := by
  intro hj
  obtain ⟨hpath, hcontent⟩ := hinv.init u j hj
  obtain rfl : i = j := Option.some.inj (hi.1.symm.trans hpath)
  simp [hi.2] at hcontent

/-- The creator of the receipt file puts the first bytes into it. -/
theorem guarantee_write {fd : Nat} {content : Content R} (hinv : Inv calls s) (hfd : s.initialising t = some fd) :
    (discipline calls).Guarantee (.call t) s (s.write t fd content) := by
  obtain ⟨hpath, hunwritten⟩ := hinv.init t fd hfd
  have hcontent : ∀ i r, Holds s i r → False := by
    rintro i r ⟨hi, hr⟩
    obtain rfl : fd = i := Option.some.inj (hpath.symm.trans hi)
    simp [hunwritten] at hr
  refine ⟨⟨hinv.path_lt, fun u i hi => ?_, fun u w i hi hj => ?_,
    fun u => ⟨(hinv.counts u).1, (hinv.counts u).2, (hinv.counts u).3, (hinv.counts u).4⟩, hinv.paid,
    ?_⟩, fun u hu => ⟨⟨fun _ _ h => h, fun _ h => h, fun _ h => h, fun i r hi _ => (hcontent i r hi).elim⟩,
      fun _ h => h, fun _ _ i hi => hi, fun _ _ i r hi => (hcontent i r hi).elim, ?_⟩⟩
  · have hi' : (if u = t then none else s.initialising u) = some i := hi
    split at hi'
    case isTrue => cases hi'
    case isFalse hut =>
      obtain rfl : fd = i := Option.some.inj (hpath.symm.trans (hinv.init u i hi').1)
      exact absurd (hinv.init_inj u t fd hi' hfd) hut
  · have hi' : (if u = t then none else s.initialising u) = some i := hi
    have hj' : (if w = t then none else s.initialising w) = some i := hj
    split at hi'
    case isTrue => cases hi'
    case isFalse =>
      split at hj'
      case isTrue => cases hj'
      case isFalse => exact hinv.init_inj u w i hi' hj'
  · show (s.trespass || !(decide (s.initialising t = some fd))) = false
    simp [hinv.licensed, hfd]
  · rintro w rfl
    have hw : w ≠ t := fun h => hu (by rw [h])
    refine ⟨?_, rfl, rfl, rfl, rfl, rfl, rfl, rfl⟩
    show (if w = t then none else s.initialising w) = s.initialising w
    rw [if_neg hw]

/-- The creator gives up; the file stays as it is. -/
theorem guarantee_abandon (hinv : Inv calls s) :
    (discipline calls).Guarantee (.call t) s (s.setInitialising t none) := by
  have hold : ∀ u i, (if u = t then none else s.initialising u) = some i →
      s.initialising u = some i := by
    intro u i hi
    split at hi
    · cases hi
    · exact hi
  refine ⟨⟨hinv.path_lt, fun u i hi => hinv.init u i (hold u i hi), fun u w i hi hj =>
    hinv.init_inj u w i (hold u i hi) (hold w i hj),
    fun u => ⟨(hinv.counts u).1, (hinv.counts u).2, (hinv.counts u).3, (hinv.counts u).4⟩, hinv.paid,
    hinv.licensed⟩, fun u hu => ⟨⟨fun _ _ h => h, fun _ h => h, fun _ h => h, fun _ _ hi _ => hi⟩, fun _ h => h,
      fun _ _ _ hi => hi, fun _ _ _ _ _ => rfl, ?_⟩⟩
  rintro w rfl
  have hw : w ≠ t := fun h => hu (by rw [h])
  refine ⟨?_, rfl, rfl, rfl, rfl, rfl, rfl, rfl⟩
  show (if w = t then none else s.initialising w) = s.initialising w
  rw [if_neg hw]

/-- What call `t` must have checked of the receipt `r`, under the lock, before it acts on it. -/
structure Licensed (calls : Calls R) (t : CallId) (i : Nat) (r : Receipt R) (s : DeliveryState R) :
    Prop where
  lock : s.lock = some (.call t)
  holds : Holds s i r
  digest : r.requestDigest = calls.digest t
  pending : r.state ≠ .completed
  owner : s.executing t = true → r.executionId = some t

theorem Licensed.mayReplace {i : Nat} {r : Receipt R} (h : Licensed calls t i r s) : s.mayReplace calls t = true := by
  unfold DeliveryState.mayReplace
  rw [h.holds.stored]
  simp only [Option.any_some, decide_eq_true_eq]
  exact ⟨h.digest, h.pending, h.owner⟩

/-- The others do not have the lock and the receipt is not completed: they tolerate any change. -/
theorem Licensed.rely {i : Nat} {r : Receipt R} {s' : DeliveryState R} {u : Thread} (h : Licensed calls t i r s) (hu : u
    ≠ .call t) (hdead : s'.dead = s.dead) (hcontrol : s'.control = s.control) (hmarks : ∀ w, u = .call w → Marks w s s')
    (hobserved : s'.observed = s.observed) : Rely calls u s s' := by
  have hnot : s.lock ≠ some u := fun hl => hu (Option.some.inj (hl.symm.trans h.lock))
  refine ⟨⟨fun _ _ hd => by rwa [hdead], fun _ ht => by rwa [hcontrol],
    fun _ ht => by rwa [hobserved], fun j r' hj hr' => ?_⟩, fun _ hl => absurd hl hnot,
    fun _ hl => absurd hl hnot, fun _ hl => absurd hl hnot, hmarks⟩
  have hsame : r' = r := Option.some.inj (hj.stored.symm.trans h.holds.stored)
  exact absurd (hsame ▸ hr') h.pending

theorem guarantee_replace {i : Nat} {r next : Receipt R} (hinv : Inv calls s) (h : Licensed calls t i r s) : (discipline
    calls).Guarantee (.call t) s (s.replace calls t next) := by
  have hpath : s.path = some i := h.holds.1
  refine ⟨⟨fun j hj => ?_, fun u j hj => absurd hj (init_elsewhere hinv h.holds u j),
    fun u w j hj => absurd hj (init_elsewhere hinv h.holds u j),
    fun u => ⟨(hinv.counts u).1, (hinv.counts u).2, (hinv.counts u).3, (hinv.counts u).4⟩, ?_, ?_⟩,
    fun u hu => h.rely hu rfl rfl ?_ rfl⟩
  · obtain rfl : s.nextInode = j := Option.some.inj hj
    exact Nat.lt_succ_self _
  · show total calls s.creates ≤ total calls s.removals + 1
    have := hinv.paid
    simpa [hpath] using this
  · show (s.trespass || !(s.mayReplace calls t)) = false
    simp [hinv.licensed, h.mayReplace]
  · rintro w rfl
    have hw : w ≠ t := fun h => hu (by rw [h])
    refine ⟨rfl, ?_, rfl, rfl, rfl, rfl, rfl, rfl⟩
    show (if w = t then _ else s.executing w) = s.executing w
    rw [if_neg hw]

theorem guarantee_remove {i : Nat} {r : Receipt R} (hinv : Inv calls s) (ht : t < calls.count) (h : Licensed calls t i r
    s) (hrejected : s.removals t < s.rejections t) : (discipline calls).Guarantee (.call t) s (s.remove calls t) := by
  have hpath : s.path = some i := h.holds.1
  refine ⟨⟨(fun j hj => by cases hj), fun u j hj => absurd hj (init_elsewhere hinv h.holds u j),
    fun u w j hj => absurd hj (init_elsewhere hinv h.holds u j), fun u => ?_, ?_, ?_⟩,
    fun u hu => h.rely hu rfl rfl ?_ rfl⟩
  · obtain ⟨hsends, hremoves, hrecovers, hrejects⟩ := hinv.counts u
    refine ⟨hsends, ?_, hrecovers, hrejects⟩
    show (if u = t then s.removals u + 1 else s.removals u) ≤ s.rejections u
    split
    case isTrue hut =>
      subst hut
      omega
    case isFalse => exact hremoves
  · show total calls s.creates ≤
      total calls (fun u => if u = t then s.removals u + 1 else s.removals u) + 0
    have := hinv.paid
    rw [total_bump _ ht]
    simpa [hpath] using this
  · show (s.trespass || !(s.mayReplace calls t)) = false
    simp [hinv.licensed, h.mayReplace]
  · rintro w rfl
    have hw : w ≠ t := fun h => hu (by rw [h])
    refine ⟨rfl, rfl, rfl, rfl, rfl, rfl, rfl, ?_⟩
    show (if w = t then s.removals w + 1 else s.removals w) = s.removals w
    rw [if_neg hw]

/-- A worker renews the receipt that it has found to be its call's, under the lock. -/
theorem guarantee_touch {fd mtimeMs : Nat} {r : Receipt R} (hinv : Inv calls s) (hlock : s.lock = some (.heartbeat t))
    (hholds : Holds s fd r) (howned : r.requestDigest = calls.digest t ∧ r.state = .sending ∧ r.executionId = some t) :
    (discipline calls).Guarantee (.heartbeat t) s (s.touch calls t fd mtimeMs) := by
  have hcontent : ∀ i, ((s.touch calls t fd mtimeMs).file i).content = (s.file i).content := by
    intro i
    show (if i = fd then _ else s.file i).content = _
    split
    case isTrue hi => rw [hi]
    case isFalse => rfl
  have hlicensed : (s.touch calls t fd mtimeMs).trespass = s.trespass := by
    have hrenew : s.mayRenew calls t fd = true := by
      unfold DeliveryState.mayRenew
      rw [hholds.stored]
      simpa [hholds.1] using howned
    show (s.trespass || !(s.mayRenew calls t fd)) = s.trespass
    simp [hrenew]
  have hframe : Frame s (s.touch calls t fd mtimeMs) :=
    ⟨fun _ _ h => h, fun _ h => h, fun _ h => h, rfl, hcontent, rfl, rfl, rfl, rfl, rfl, hlicensed⟩
  have hmarks : ∀ w, Marks w s (s.touch calls t fd mtimeMs) := fun _ => ⟨rfl, rfl, rfl, rfl, rfl, rfl, rfl, rfl⟩
  refine ⟨hframe.inv hinv fun w => (hmarks w).counts (hinv.counts w), fun u hu => ?_⟩
  have hnot : s.lock ≠ some u := fun hl => hu (Option.some.inj (hl.symm.trans hlock))
  exact hframe.rely (fun _ hl => absurd hl hnot) (fun hl => absurd hl hnot)
    fun w _ => hmarks w

end Effects

end RabiRoute.DurableDelivery
