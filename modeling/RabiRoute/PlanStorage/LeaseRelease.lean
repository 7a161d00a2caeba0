import RabiRoute.PlanStorage.LeaseReclaim

/-!
# Taking the lock over and giving it back

`replaceRecoverableLock` moves a dead owner's lock aside and links its candidate, and
`releaseOwnedLease` moves the call's own lock aside and unlinks it.  Under the reclaim fence the lock
that a call has checked is the lock that its rename moves.
-/

open Interleave Interleave.Program

namespace RabiRoute.Lease

variable {calls : Calls} {strict : Prop}

section Replacing

variable {t : CallId} {s : LeaseState} {candidate stale fence i : Nat}

/-- Call `t` has drawn this UUID and not yet used it. -/
structure Drawn (t : CallId) (n : Nat) (s : LeaseState) : Prop where
  drawnBy : s.drawnBy n = t
  lt : n < s.nextUuid
  unused : s.used (.stale n) = false

theorem Drawn.steady {n : Nat} {s' : LeaseState} (h : Drawn t n s) (hs : Steady calls strict t s s') : Drawn t n s' :=
  ⟨(hs.kept.base.drawn n h.lt).trans h.drawnBy, h.lt.trans_le hs.kept.base.uuid_le,
    (hs.kept.unused n h.lt h.drawnBy).trans h.unused⟩

theorem LeaseFile.IsLease.later {s' : LeaseState} (h : (s.file i).IsLease calls) (hbase : Base s s')
    (hinv : Inv calls s) (hlt : i < s.nextInode) : (s'.file i).IsLease calls := by
  obtain ⟨r, hr, howner⟩ := h
  exact ⟨r, hbase.record hinv hlt hr, by rw [hbase.creator i hlt]; exact howner⟩

/-- Call `t`, while its process lives, has the reclaim fence. -/
structure HasFence (calls : Calls) (t : CallId) (fence : Nat) (s : LeaseState) : Prop where
  inv : Inv calls s
  mine : calls.alive s t = true → FenceMine t fence s

theorem HasFence.later {s' : LeaseState} (h : HasFence calls t fence s)
    (hl : Later calls strict t s s') : HasFence calls t fence s' :=
  ⟨hl.inv, fun ha => (hl.rely.own t rfl).fence ha _ (h.mine (hl.rely.base.alive ha))⟩

theorem HasFence.unique (h : HasFence calls t fence s) (ha : calls.alive s t = true)
    {w : CallId} (hw : w ≠ t) (j : Nat) : ¬ FenceMine w j s :=
  fun hf => hw (hf.unique (h.mine ha))

/-- Under its fence, call `t` has found file `i` at the lock path. -/
structure Checked (calls : Calls) (t : CallId) (fence i : Nat) (s : LeaseState) : Prop where
  fenced : HasFence calls t fence s
  lt : i < s.nextInode
  lock : calls.alive s t = true → s.names .lock = some i

theorem Checked.later {s' : LeaseState} (h : Checked calls t fence i s)
    (hl : Later calls strict t s s') : Checked calls t fence i s' :=
  ⟨h.fenced.later hl, h.lt.trans_le hl.rely.base.next_le, fun ha =>
    (hl.rely.own t rfl).fenced ha i fence (h.fenced.mine (hl.rely.base.alive ha))
      (h.lock (hl.rely.base.alive ha))⟩

/-- A snapshot of the lock under the fence is of the file that stays there. -/
theorem wp_checkLock {Q : Option LeaseFileSnapshot → LeaseState → Prop}
    {E : LeaseError → LeaseState → Prop} (hfence : HasFence calls t fence s)
    (hQ : ∀ snapshot s', Later calls strict t s s' → (∀ v, snapshot = some v →
      Checked calls t fence v.stat.ino s' ∧
        (calls.alive s' t = true → ∀ r, v.raw = .record r →
          (s'.file v.stat.ino).content = .record r)) → Q snapshot s')
    (hE : ∀ e s', Later calls strict t s s' → ¬ strict → E e s') :
    triple calls strict (.call t) (readStableSnapshot .lock) Q E s := by
  refine wp_readStableSnapshot hfence.inv (fun snapshot s' _ hl hsnapshot => ?_)
    fun e s' _ hl hst => hE e s' (hl (by simp)) hst
  have hl := hl (by simp)
  refine hQ snapshot s' hl fun v hv => ?_
  have hobserved := hsnapshot v hv
  obtain ⟨s₁, s₂, j, hs₁, hl₂, hj, hraw, -, -, hs', -, hquiet, -⟩ := hobserved.read
  obtain ⟨hl₁, hl'⟩ := hquiet (by simp)
  have hchecked : Checked calls t fence v.stat.ino s :=
    ⟨hfence, hfence.inv.names_lt _ _ hobserved.first, fun _ => hobserved.first⟩
  refine ⟨hchecked.later hl, fun ha r hr => ?_⟩
  have hrest : Later calls strict t s₁ s' := hl₂.trans hl'
  obtain rfl : v.stat.ino = j :=
    Option.some.inj (((hchecked.later hl₁).lock (hrest.rely.base.alive ha)).symm.trans hj)
  exact hrest.rely.base.record hl₁.inv (hchecked.later hl₁).lt (hraw.trans hr)

/-- Call `t` has the reclaim fence, its candidate, and not the lock. -/
structure Fenced (calls : Calls) (t : CallId) (candidate fence : Nat) (s : LeaseState) : Prop where
  fence : HasFence calls t fence s
  holding : s.holding t = false
  candidateFile : CandidateFile calls t candidate s

theorem Fenced.later {s' : LeaseState} (h : Fenced calls t candidate fence s)
    (hl : Later calls strict t s s') : Fenced calls t candidate fence s' :=
  ⟨h.fence.later hl, (hl.rely.own t rfl).holding.trans h.holding, h.candidateFile.steady (.of_later hl)⟩

theorem Fenced.inv (h : Fenced calls t candidate fence s) : Inv calls s :=
  h.fence.inv

/-- Call `t` has set the file of a dead call aside under a stale name. -/
structure Aside (calls : Calls) (t : CallId) (candidate fence stale i : Nat) (s : LeaseState) :
    Prop where
  fenced : Fenced calls t candidate fence s
  lt : i < s.nextInode
  dead : s.dead (calls.pid (s.file i).creator) = true
  lease : (s.file i).IsLease calls
  used : s.used (.stale stale) = true
  names : ∀ j, s.names (.stale stale) = some j → j = i

theorem Aside.later {s' : LeaseState} (h : Aside calls t candidate fence stale i s)
    (hl : Later calls strict t s s') : Aside calls t candidate fence stale i s' where
  fenced := h.fenced.later hl
  lt := h.lt.trans_le hl.rely.base.next_le
  dead := by
    rw [hl.rely.base.creator i h.lt]
    exact hl.rely.base.dead _ h.dead
  lease := h.lease.later hl.rely.base h.fenced.inv h.lt
  used := hl.rely.base.used _ h.used
  names j hj := h.names j (hl.rely.base.rebind (.stale stale) stale j rfl h.used hj)

theorem Aside.ne_of_alive (h : Aside calls t candidate fence stale i s) {w : CallId}
    (hw : calls.alive s w = true) : (s.file i).creator ≠ w := by
  rintro rfl
  rw [alive_iff, h.dead] at hw
  cases hw

/-- The dead owner's lock is set aside and the lock path does not carry the token of call `t`. -/
structure Detached (calls : Calls) (strict : Prop) (t : CallId) (candidate fence stale i : Nat)
    (s : LeaseState) : Prop where
  aside : Aside calls t candidate fence stale i s
  notCarried : strict → calls.alive s t = true → NotCarried t s

theorem Detached.later {s' : LeaseState} (h : Detached calls strict t candidate fence stale i s)
    (hl : Later calls strict t s s') : Detached calls strict t candidate fence stale i s' :=
  ⟨h.aside.later hl, fun hst ha =>
    (hl.rely.own t rfl).notCarried ha (h.notCarried hst (hl.rely.base.alive ha))⟩

theorem Detached.idle (h : Detached calls strict t candidate fence stale i s) : Idle calls strict t s :=
  ⟨h.aside.fenced.inv, h.aside.fenced.holding, h.notCarried⟩

/-- The dead owner's lock is set aside and the lock path names the candidate of call `t`. -/
structure Published (calls : Calls) (t : CallId) (candidate fence stale i : Nat) (s : LeaseState) :
    Prop where
  aside : Aside calls t candidate fence stale i s
  mine : calls.alive s t = true → LockMine t s

theorem Published.owner (h : Published calls t candidate fence stale i s) : Owner calls t s :=
  ⟨h.aside.fenced.inv, h.mine⟩

theorem Published.later {s' : LeaseState} (h : Published calls t candidate fence stale i s)
    (hl : Later calls strict t s s') : Published calls t candidate fence stale i s' :=
  ⟨h.aside.later hl, (h.owner.later hl).mine⟩

theorem execLive_rename {source target : Name} {ch : Choice}
    {r : (Cmd.rename source target).Response} {s' : LeaseState}
    (hexec : execLive calls t s (.rename source target) ch = some (r, s')) :
    (s' = s ∧ (∃ e, r = .error e) ∧ (ch = .ok → s.names source = none)) ∨
      ∃ i, s.names source = some i ∧ s' = s.rename t source target i ∧ r = .ok () := by
  cases ch <;> cases hname : s.names source <;>
    simp only [execLive, hname, Option.some.injEq, Prod.mk.injEq] at hexec <;>
    obtain ⟨rfl, rfl⟩ := hexec <;> simp

theorem execLive_link {source target : Name} {ch : Choice}
    {r : (Cmd.link source target).Response} {s' : LeaseState}
    (hexec : execLive calls t s (.link source target) ch = some (r, s')) :
    (s' = s ∧ ∃ e, r = .error e) ∨ ∃ i, s.names source = some i ∧ s.names target = none ∧
      s' = s.setName target (some i) ∧ r = .ok () := by
  cases ch <;> cases hsource : s.names source <;> cases htarget : s.names target <;>
    simp only [execLive, hsource, htarget, Option.some.injEq, Prod.mk.injEq] at hexec <;>
    obtain ⟨rfl, rfl⟩ := hexec <;> simp

/-- The fenced rename of a dead owner's lock. -/
theorem wp_detach {Q : Unit → LeaseState → Prop} {E : LeaseError → LeaseState → Prop} (hfenced : Fenced calls t
    candidate fence s) (hchecked : Checked calls t fence i s) (hdrawn : Drawn t stale s) (hdead : s.dead (calls.pid
    (s.file i).creator) = true) (hQ : ∀ s', Detached calls strict t candidate fence stale i s' → Q () s') (hE : ∀ e s',
    Later calls strict t s s' → E e s') : triple calls strict (.call t) (sys (.rename .lock (.stale stale))) Q E s := by
  have hinv := hfenced.inv
  refine wp_callStep fun ch r s' _ ha hexec => ?_
  rcases execLive_rename hexec with ⟨rfl, ⟨e, rfl⟩, -⟩ | ⟨j, hj, rfl, rfl⟩
  · exact ⟨guarantee_self hinv, fun s'' hl => ⟨(fun _ hv => by cases hv), fun e _ => hE e s'' hl⟩⟩
  · obtain rfl : i = j := Option.some.inj ((hchecked.lock ha).symm.trans hj)
    have hne : ∀ w, calls.alive s w = true → (s.file i).creator ≠ w := by
      rintro w hw rfl
      rw [alive_iff, hdead] at hw
      cases hw
    have hrename : s.rename t .lock (.stale stale) i =
        (s.setName (.stale stale) (some i)).setName .lock none := by
      simp [LeaseState.rename, hne t ha]
    have hlease := hinv.lock_lease i hj
    have hg₁ : (discipline calls strict).Guarantee (.call t) _ _ :=
      guarantee_setAside hinv hdrawn.drawnBy hdrawn.lt hdrawn.unused
      hchecked.lt hlease
    have hg₂ : (discipline calls strict).Guarantee (.call t) (s.setName (.stale stale) (some i))
        ((s.setName (.stale stale) (some i)).setName .lock none) := by
      refine guarantee_detach hg₁.inv (by simpa [setName_names] using hj) hfenced.holding
        fun w hw hwa => ⟨hne w hwa, fun j hf => ?_⟩
      refine hfenced.fence.unique ha hw j ⟨?_, hf.creator, hf.content⟩
      simpa [setName_names] using hf.name
    rw [hrename]
    have hg := hg₁.trans hg₂
    refine ⟨hg, fun s'' hl => ⟨fun _ _ => hQ s'' (Detached.later ?_ hl), fun _ hv => by cases hv⟩⟩
    refine ⟨⟨⟨⟨hg.inv, fun ha => ?_⟩, hfenced.holding, ?_⟩, hchecked.lt, hdead, hlease, ?_, ?_⟩, ?_⟩
    · have hf := hfenced.fence.mine ha
      exact ⟨by simpa [setName_names] using hf.name, hf.creator, hf.content⟩
    · obtain ⟨k, hk, hc, hlease', hnames⟩ := hfenced.candidateFile.file
      refine ⟨hg.inv, ?_, k, hk, hc, hlease', fun j hj => hnames j ?_⟩
      · simpa [LeaseState.setName] using hfenced.candidateFile.used
      · simpa [setName_names] using hj
    · simp [LeaseState.setName]
    · intro j hj
      simpa [setName_names] using hj.symm
    · intro _ _ j hj
      simp [setName_names] at hj

theorem Fenced.setLock {target : Option Nat} (h : Fenced calls t candidate fence s) (hinv : Inv calls (s.setName .lock
    target)) : Fenced calls t candidate fence (s.setName .lock target) := by
  obtain ⟨k, hk, hc, hlease, hnames⟩ := h.candidateFile.file
  refine ⟨⟨hinv, fun ha => ?_⟩, h.holding, ⟨hinv, ?_, k, hk, hc, hlease, fun j hj => hnames j ?_⟩⟩
  · have hf := h.fence.mine ha
    exact ⟨by simpa [setName_names] using hf.name, hf.creator, hf.content⟩
  · simpa [LeaseState.setName] using h.candidateFile.used
  · simpa [setName_names] using hj

theorem Aside.setLock {target : Option Nat} (h : Aside calls t candidate fence stale i s) (hinv : Inv calls (s.setName
    .lock target)) : Aside calls t candidate fence stale i (s.setName .lock target) :=
  ⟨h.fenced.setLock hinv, h.lt, h.dead, h.lease, by simpa [LeaseState.setName] using h.used,
    fun j hj => h.names j (by simpa [setName_names] using hj)⟩

/-- The exclusive link of the candidate to the lock path. -/
theorem wp_linkCandidate {Q : Unit → LeaseState → Prop} {E : LeaseError → LeaseState → Prop}
    (hcandidate : CandidateFile calls t candidate s)
    (hQ : ∀ target s', Inv calls (s.setName .lock target) →
      LockMine t (s.setName .lock target) → Later calls strict t (s.setName .lock target) s' →
      Q () s')
    (hE : ∀ e s', Later calls strict t s s' → E e s') :
    triple calls strict (.call t) (sys (.link (.candidate candidate) .lock)) Q E s := by
  refine wp_callStep fun ch r s' _ ha hexec => ?_
  rcases execLive_link hexec with ⟨rfl, e, rfl⟩ | ⟨j, hj, hfree, rfl, rfl⟩
  · exact ⟨guarantee_self hcandidate.inv, fun s'' hl =>
      ⟨(fun _ hv => by cases hv), fun e _ => hE e s'' hl⟩⟩
  · obtain ⟨k, hk, hc, hlease, hnames⟩ := hcandidate.file
    obtain rfl := hnames j hj
    have hg : (discipline calls strict).Guarantee (.call t) _ _ :=
      guarantee_publish (t := t) hcandidate.inv hfree hk hlease
      fun w hw _ => by rw [hc]; exact hw.symm
    exact ⟨hg, fun s'' hl => ⟨fun _ _ => hQ (some j) s'' hg.inv ⟨j, by simp [setName_names], hc⟩ hl,
      fun _ hv => by cases hv⟩⟩

/-- The `try` block of `replaceRecoverableLock` ends with locals that tell what it has done. -/
def Outcome (calls : Calls) (strict : Prop) (t : CallId) (candidate fence stale : Nat)
    (locals : Fencing) (s : LeaseState) : Prop :=
  (locals = ⟨false, false, false⟩ ∧ Idle calls strict t s ∧ CandidateFile calls t candidate s) ∨
    ∃ i, (locals = ⟨true, true, false⟩ ∧ Detached calls strict t candidate fence stale i s) ∨
      ((locals = ⟨true, true, true⟩ ∨ locals = ⟨true, false, true⟩) ∧
        Published calls t candidate fence stale i s)

theorem wp_during {L α : Type} {locals : L} {p : Prog α} {Q : α → LeaseState → Prop} {E : L × LeaseError → LeaseState →
    Prop} (h : triple calls strict (.call t) p Q (fun e s' => E (locals, e) s') s) : triple calls strict (.call t)
    (during locals p) Q E s :=
  wp_handle h

theorem wp_detachAndPublish {observed : LeaseFileSnapshot} (hidle : Idle calls strict t s)
    (hfenced : Fenced calls t candidate fence s) (hdrawn : Drawn t stale s) :
    triple calls strict (.call t) (detachAndPublish calls t observed candidate stale)
      (fun (locals, replaced) s' => Outcome calls strict t candidate fence stale locals s' ∧
        (replaced = true → locals = ⟨true, false, true⟩) ∧
        (replaced = false → locals = ⟨false, false, false⟩))
      (fun (locals, _) s' => Outcome calls strict t candidate fence stale locals s' ∧
        locals ≠ ⟨true, false, true⟩) s := by
  have hidleOutcome : ∀ s', Idle calls strict t s' → CandidateFile calls t candidate s' →
      Outcome calls strict t candidate fence stale ⟨false, false, false⟩ s' :=
    fun s' h h' => .inl ⟨rfl, h, h'⟩
  have hdetachedOutcome : ∀ i s', Detached calls strict t candidate fence stale i s' →
      Outcome calls strict t candidate fence stale ⟨true, true, false⟩ s' :=
    fun i s' h => .inr ⟨i, .inl ⟨rfl, h⟩⟩
  have hpublishedOutcome : ∀ i s', Published calls t candidate fence stale i s' →
      Outcome calls strict t candidate fence stale ⟨true, true, true⟩ s' :=
    fun i s' h => .inr ⟨i, .inr ⟨.inl rfl, h⟩⟩
  refine wp_bind (wp_during (wp_checkLock hfenced.fence (fun checked s₁ hl₁ hchecked => ?_)
    fun e s₁ hl₁ _ => ⟨hidleOutcome s₁ (hidle.later hl₁) (hfenced.later hl₁).candidateFile, by simp⟩))
  have hidle₁ := hidle.later hl₁
  have hfenced₁ := hfenced.later hl₁
  split
  · exact ⟨hidleOutcome s₁ hidle₁ hfenced₁.candidateFile, by simp, by simp⟩
  rename_i hsame
  obtain rfl : checked = some observed := not_not.mp hsame
  obtain ⟨hlock, hrecord⟩ := hchecked observed rfl
  refine wp_bind (wp_during (wp_quietStep (c := .dateNow) trivial hl₁.inv
    fun ch r s₂ _ ha hexec hl₂ => ⟨fun now _ => ?_, fun e hr => ?_⟩))
  swap
  · subst hr
    cases ch <;> simp [execLive] at hexec
  have hidle₂ := hidle₁.later hl₂
  have hfenced₂ := hfenced₁.later hl₂
  have hwritten : ∀ r, observed.raw = .record r →
      Written calls (s₁.file observed.stat.ino).creator r := fun r hr =>
    hl₁.inv.records _ _ (hrecord ha r hr)
  refine wp_bind (wp_during (wp_isRecoverableSnapshot hl₂.inv hwritten
    fun recoverable s₃ hl₃ hdead => ?_))
  have hidle₃ := hidle₂.later hl₃
  have hfenced₃ := hfenced₂.later hl₃
  cases recoverable with
  | false => exact ⟨hidleOutcome s₃ hidle₃ hfenced₃.candidateFile, by simp, by simp⟩
  | true =>
    have hdead₃ : s₃.dead (calls.pid (s₃.file observed.stat.ino).creator) = true := by
      rw [(hl₂.trans hl₃).rely.base.creator _ hlock.lt]
      exact hl₃.rely.base.dead _ (hdead rfl).2
    have hdrawn₃ : Drawn t stale s₃ := hdrawn.steady (.of_later ((hl₁.trans hl₂).trans hl₃))
    have hlock₃ := (hlock.later hl₂).later hl₃
    refine wp_bind (wp_during (wp_detach hfenced₃ hlock₃ hdrawn₃ hdead₃
      (fun s₄ hdetached₄ => ?_) fun e s₄ hl₄ => ⟨hidleOutcome s₄ (hidle₃.later hl₄)
        (hfenced₃.later hl₄).candidateFile, by simp⟩))
    refine wp_bind (wp_during (wp_readStableSnapshot hdetached₄.aside.fenced.inv
      (fun linked s₅ _ hl₅ _ => ?_) fun e s₅ _ hl₅ _ =>
        ⟨hdetachedOutcome _ s₅ (hdetached₄.later (hl₅ (by simp))), by simp⟩))
    have hdetached₅ := hdetached₄.later (hl₅ (by simp))
    split
    · exact ⟨hdetachedOutcome _ s₅ hdetached₅, by simp⟩
    refine wp_bind (wp_during (wp_linkCandidate hdetached₅.aside.fenced.candidateFile
      (fun target s₆ hinv₆ hmine hl₆ => ?_) fun e s₆ hl₆ =>
        ⟨hdetachedOutcome _ s₆ (hdetached₅.later hl₆), by simp⟩))
    have hpublished₆ : Published calls t candidate fence stale observed.stat.ino s₆ :=
      Published.later ⟨hdetached₅.aside.setLock hinv₆, fun _ => hmine⟩ hl₆
    refine wp_bind (wp_during (wp_readStableSnapshot hl₆.inv (fun fenced s₇ _ hl₇ _ => ?_)
      fun e s₇ _ hl₇ _ =>
        ⟨hpublishedOutcome _ s₇ (hpublished₆.later (hl₇ (by simp))), by simp⟩))
    have hpublished₇ := hpublished₆.later (hl₇ (by simp))
    split
    · exact ⟨hpublishedOutcome _ s₇ hpublished₇, by simp⟩
    refine wp_bind (wp_during (wp_readLeaseMetadata hpublished₇.aside.fenced.inv
      fun current s₈ hl₈ _ _ => ?_))
    have hpublished₈ := hpublished₇.later hl₈
    split
    · exact ⟨hpublishedOutcome _ s₈ hpublished₈, by simp⟩
    · exact ⟨.inr ⟨_, .inr ⟨.inr rfl, hpublished₈⟩⟩, by simp, by simp⟩

/-! ### Restoring and cleaning up -/

theorem wp_unlinkStale {Q : Unit → LeaseState → Prop} {E : LeaseError → LeaseState → Prop}
    (haside : Aside calls t candidate fence stale i s)
    (hQ : ∀ s', Steady calls strict t s s' → Q () s')
    (hE : ∀ e s', Steady calls strict t s s' → ¬ strict → E e s') :
    triple calls strict (.call t) ((sys (.unlink (.stale stale))).attempt fun error =>
      if error = LeaseError.enoent then pure () else raise error) Q E s := by
  have hcondemned : Condemned calls t (.stale stale) s := by
    refine ⟨(fun h => by cases h), ?_⟩
    rintro n j ⟨⟩ hj
    rw [haside.names j hj]
    exact haside.dead
  refine wp_attempt (wp_unlinkCondemned haside.fenced.inv (by simp) hcondemned hQ
    fun e s' hs he => ?_)
  split
  case isTrue => exact hQ s' hs
  case isFalse hne => exact hE e s' hs fun hst => hne (he hst)

/-- The call takes its own publication back. -/
theorem wp_unlinkPublished {Q : Unit → LeaseState → Prop} {E : LeaseError → LeaseState → Prop} (hpublished : Published
    calls t candidate fence stale i s) (hQ : ∀ s', Detached calls strict t candidate fence stale i s' → Q () s') (hE : ∀
    e s', Idle calls strict t s' → E e s') : triple calls strict (.call t) (sys (.unlink .lock)) Q E s := by
  have hinv := hpublished.aside.fenced.inv
  refine wp_callStep fun ch r s' hok ha hexec => ?_
  obtain ⟨j, hj, hc⟩ := hpublished.mine ha
  rcases execLive_unlink hexec with ⟨rfl, e, rfl, he⟩ | ⟨-, rfl, rfl⟩
  · refine ⟨guarantee_self hinv, fun s'' hl => ⟨(fun _ hv => by cases hv), fun e _ => hE e s'' ?_⟩⟩
    refine ⟨hl.inv, (hl.rely.own t rfl).holding.trans hpublished.aside.fenced.holding,
      fun hst => ?_⟩
    have := (he (hok.2 hst)).2
    simp [hj] at this
  · have hg : (discipline calls strict).Guarantee (.call t) _ _ :=
      guarantee_detach hinv hj hpublished.aside.fenced.holding
      fun w hw _ => ⟨by rw [hc]; exact hw.symm, hpublished.aside.fenced.fence.unique ha hw⟩
    refine ⟨hg, fun s'' hl => ⟨fun _ _ => hQ s'' (Detached.later ⟨hpublished.aside.setLock hg.inv,
      fun _ _ k hk => ?_⟩ hl), fun _ hv => by cases hv⟩⟩
    simp [setName_names] at hk

/-- The dead owner's file goes back to a lock path that is still free. -/
theorem wp_linkStale {Q : Unit → LeaseState → Prop} {E : LeaseError → LeaseState → Prop} (hdetached : Detached calls
    strict t candidate fence stale i s) (hQ : ∀ s', Detached calls strict t candidate fence stale i s' → Q () s') (hE :
    ∀ e s', Detached calls strict t candidate fence stale i s' → E e s') : triple calls strict (.call t) (sys (.link
    (.stale stale) .lock)) Q E s := by
  have hinv := hdetached.aside.fenced.inv
  refine wp_callStep fun ch r s' _ ha hexec => ?_
  rcases execLive_link hexec with ⟨rfl, e, rfl⟩ | ⟨j, hj, hfree, rfl, rfl⟩
  · exact ⟨guarantee_self hinv, fun s'' hl =>
      ⟨(fun _ hv => by cases hv), fun e _ => hE e s'' (hdetached.later hl)⟩⟩
  · obtain rfl := hdetached.aside.names j hj
    have hg : (discipline calls strict).Guarantee (.call t) _ _ :=
      guarantee_publish (t := t) hinv hfree hdetached.aside.lt
      hdetached.aside.lease fun w _ hw => hdetached.aside.ne_of_alive hw
    refine ⟨hg, fun s'' hl => ⟨fun _ _ => hQ s'' (Detached.later ⟨hdetached.aside.setLock hg.inv,
      fun _ _ k hk => ?_⟩ hl), fun _ hv => by cases hv⟩⟩
    obtain rfl : j = k := by simpa [setName_names] using hk
    exact hdetached.aside.ne_of_alive ha

/-- The `finally` block, when the lock has been set aside and is to go back. -/
theorem wp_restoreDetached (hdetached : Detached calls strict t candidate fence stale i s) :
    triple calls strict (.call t)
      (do
        sys (.link (.stale stale) .lock)
        (sys (.unlink (.stale stale))).attempt fun error =>
          if error = LeaseError.enoent then pure () else raise error : Prog Unit)
      (fun _ s' => Idle calls strict t s' ∧ CandidateFile calls t candidate s')
      (fun _ => Idle calls strict t) s := by
  refine wp_bind (wp_linkStale hdetached (fun s₁ h₁ => ?_) fun e s₁ h₁ => h₁.idle)
  exact wp_unlinkStale h₁.aside
    (fun s₂ hs => ⟨h₁.idle.steady hs, h₁.aside.fenced.candidateFile.steady hs⟩)
    fun e s₂ hs _ => h₁.idle.steady hs

/-- Whether the call reads its own token or not, its token is not at the lock path afterwards; in
a run that is not strict the read may have failed. -/
theorem wp_retract {β : Type} {f : Prog β} {Q : β → LeaseState → Prop}
    {E : LeaseError → LeaseState → Prop}
    (hpublished : Published calls t candidate fence stale i s)
    (hf : ∀ s', Detached calls strict t candidate fence stale i s' →
      triple calls strict (.call t) f Q E s')
    (hE : ∀ e s', Idle calls strict t s' → E e s') :
    triple calls strict (.call t) (do
        let current ← readLeaseMetadata .lock
        if current.bind (·.owner) = some (.lease (calls.owner t)) then sys (.unlink .lock)
        else pure ()
        f : Prog β) Q E s := by
  refine wp_bind (wp_readLeaseMetadata hpublished.aside.fenced.inv fun current s₁ hl₁ _ hread => ?_)
  have h₁ := hpublished.later hl₁
  split
  case isTrue => exact wp_bind (wp_unlinkPublished h₁ hf hE)
  case isFalse hother =>
      refine hf s₁ ⟨h₁.aside, fun hst ha => absurd ?_ hother⟩
      have ha₀ := hl₁.rely.base.alive ha
      obtain ⟨j, hj, hc⟩ := hpublished.mine ha₀
      obtain ⟨r, hr, howner⟩ := hpublished.aside.fenced.inv.lock_lease j hj
      rw [hread hst ha₀ j r hj hr, Option.bind_some, howner, hc]

theorem wp_restoreAndClean {locals : Fencing} (done : Bool)
    (houtcome : Outcome calls strict t candidate fence stale locals s)
    (hdone : done = true ↔ locals = ⟨true, false, true⟩) :
    triple calls strict (.call t) (restoreAndClean calls t stale locals)
      (fun _ s' => if done then Owner calls t s' ∧ s'.holding t = false
        else Idle calls strict t s' ∧ CandidateFile calls t candidate s')
      (fun _ s' => if done then Idle calls strict t s' ∧ ¬ strict else Idle calls strict t s') s := by
  rcases houtcome with ⟨rfl, hidle, hcandidate⟩ | ⟨i, ⟨rfl, hdetached⟩ | ⟨rfl | rfl, hpublished⟩⟩
  · obtain rfl : done = false := by simpa using hdone
    exact ⟨hidle, hcandidate⟩
  · obtain rfl : done = false := by simpa using hdone
    exact wp_restoreDetached hdetached
  · obtain rfl : done = false := by simpa using hdone
    exact wp_retract hpublished (fun s' h => wp_restoreDetached h) fun e s' h => h
  · obtain rfl : done = true := by simpa using hdone
    refine wp_unlinkStale hpublished.aside (fun s' hs => ⟨hpublished.owner.steady hs, ?_⟩)
      fun e s' hs hst => ⟨⟨hs.inv, ?_, fun h => absurd h hst⟩, hst⟩
    · exact hs.kept.holding.trans hpublished.aside.fenced.holding
    · exact hs.kept.holding.trans hpublished.aside.fenced.holding

theorem wp_finishFencing {locals : Fencing} (done : Bool)
    (houtcome : Outcome calls strict t candidate fence stale locals s)
    (hdone : done = true ↔ locals = ⟨true, false, true⟩) :
    triple calls strict (.call t) (finishFencing calls t stale locals)
      (fun _ s' => if done then Owner calls t s' ∧ s'.holding t = false
        else Idle calls strict t s' ∧ CandidateFile calls t candidate s')
      (fun _ => Idle calls strict t) s := by
  have hrelease : ∀ s₁, Inv calls s₁ → triple calls strict (.call t)
      (releaseReclaimFence (calls.mode t) (.reclaim (calls.owner t)))
      (fun _ => Steady calls strict t s₁) (fun _ s' => Steady calls strict t s₁ s' ∧ ¬ strict) s₁ :=
    fun s₁ hinv => wp_releaseReclaimFence hinv rfl
  refine wp_ensure (wp_mono (wp_restoreAndClean done houtcome hdone) (fun _ s₁ h₁ => ?_)
    fun e s₁ h₁ => ?_)
  · cases done with
    | true =>
      obtain ⟨howner, hholding⟩ := h₁
      refine wp_mono (hrelease s₁ howner.inv) (fun _ s₂ hs => ?_) fun e s₂ hs => ?_
      · exact ⟨howner.steady hs, hs.kept.holding.trans hholding⟩
      · exact ⟨hs.1.inv, hs.1.kept.holding.trans hholding, fun h => absurd h hs.2⟩
    | false =>
      obtain ⟨hidle, hcandidate⟩ := h₁
      exact wp_mono (hrelease s₁ hidle.inv)
        (fun _ s₂ hs => ⟨hidle.steady hs, hcandidate.steady hs⟩)
        fun e s₂ hs => hidle.steady hs.1
  · have hidle : Idle calls strict t s₁ := by
      cases done with
      | true => exact h₁.1
      | false => exact h₁
    exact wp_mono (hrelease s₁ hidle.inv) (fun _ s₂ hs => hidle.steady hs)
      fun e s₂ hs => hidle.steady hs.1

theorem Observed.written {name : Name} {s' : LeaseState} {v : LeaseFileSnapshot} (h : Observed calls strict t name s s'
    v) : ∃ w, ∀ r, v.raw = .record r → Written calls w r := by
  obtain ⟨s₁, s₂, j, hs₁, -, -, hraw, -⟩ := h.read
  exact ⟨_, fun r hr => hs₁.inv.records j r (hraw.trans hr)⟩

theorem wp_randomUUID {Q : Nat → LeaseState → Prop} {E : LeaseError → LeaseState → Prop}
    (hinv : Inv calls s)
    (hQ : ∀ n s', s'.drawnBy n = t → n < s'.nextUuid →
      (∀ name, name.uuid = some n → s'.used name = false) → Steady calls strict t s s' →
      (∀ f, HasFence calls t f s → HasFence calls t f s') → Q n s') :
    triple calls strict (.call t) (sys .randomUUID) Q E s := by
  refine wp_callStep fun ch r s' _ ha hexec => ?_
  obtain ⟨rfl, rfl⟩ : r = .ok s.nextUuid ∧ s' = s.drawUuid t := by
    cases ch <;> simp only [execLive, Option.some.injEq, Prod.mk.injEq] at hexec <;>
      exact ⟨hexec.1.symm, hexec.2.symm⟩
  have hg : (discipline calls strict).Guarantee (.call t) _ _ := guarantee_drawUuid (t := t) hinv
  refine ⟨hg, fun s'' hl => ⟨?_, fun _ hv => by cases hv⟩⟩
  rintro _ ⟨⟩
  have hdrawn : (s.drawUuid t).drawnBy s.nextUuid = t := by simp [LeaseState.drawUuid]
  have hlt : s.nextUuid < (s.drawUuid t).nextUuid := Nat.lt_succ_self _
  refine hQ s.nextUuid s'' ((hl.rely.base.drawn _ hlt).trans hdrawn)
    (hlt.trans_le hl.rely.base.uuid_le) (fun name hname => ?_)
    (.step hg hl rfl rfl rfl (fun _ => rfl) (fun _ _ _ _ => rfl) hinv) fun f hf => ?_
  · rw [(hl.rely.own t rfl).unused name s.nextUuid hname hlt hdrawn]
    exact hinv.fresh name _ hname (le_refl _)
  · refine HasFence.later ⟨hg.inv, fun ha => ?_⟩ hl
    have := hf.mine ha
    exact ⟨this.name, this.creator, this.content⟩

theorem wp_replaceRecoverableLock (hidle : Idle calls strict t s)
    (hcandidate : CandidateFile calls t candidate s) :
    triple calls strict (.call t) (replaceRecoverableLock calls t candidate)
      (fun replaced s' => if replaced then Owner calls t s' ∧ s'.holding t = false
        else Idle calls strict t s' ∧ CandidateFile calls t candidate s')
      (fun _ => Idle calls strict t) s := by
  refine wp_bind (wp_readStableSnapshot hidle.inv (fun observed s₁ hs₁ _ hobserved => ?_)
    fun e s₁ hs₁ _ _ => hidle.steady hs₁)
  have hidle₁ := hidle.steady hs₁
  have hcandidate₁ := hcandidate.steady hs₁
  cases observed with
  | none => exact ⟨hidle₁, hcandidate₁⟩
  | some observed =>
    obtain ⟨w, hwritten⟩ := (hobserved observed rfl).written
    refine wp_bind (wp_quietStep (c := .dateNow) trivial hidle₁.inv fun ch r s₂ _ _ hexec hl₂ =>
      ⟨fun now _ => ?_, fun e _ => hidle₁.later hl₂⟩)
    refine wp_bind (wp_isRecoverableSnapshot hl₂.inv hwritten fun recoverable s₃ hl₃ _ => ?_)
    have hidle₃ := (hidle₁.later hl₂).later hl₃
    have hcandidate₃ := (hcandidate₁.steady (.of_later hl₂)).steady (.of_later hl₃)
    cases recoverable with
    | false => exact ⟨hidle₃, hcandidate₃⟩
    | true =>
      refine wp_bind (wp_acquireReclaimFence hidle₃.inv rfl (fun fenced s₄ hs₄ hfence _ => ?_)
        fun e s₄ hs₄ _ => hidle₃.steady hs₄)
      have hidle₄ := hidle₃.steady hs₄
      have hcandidate₄ := hcandidate₃.steady hs₄
      cases fenced with
      | false => exact ⟨hidle₄, hcandidate₄⟩
      | true =>
        obtain ⟨f, hfence₄⟩ : ∃ f, HasFence calls t f s₄ := by
          by_cases ha : calls.alive s₄ t = true
          · obtain ⟨f, hf⟩ := hfence rfl ha
            exact ⟨f, hs₄.inv, fun _ => hf⟩
          · exact ⟨0, hs₄.inv, fun h => absurd h ha⟩
        refine wp_bind (wp_randomUUID hs₄.inv fun stale s₅ hdrawn hlt hunused hs₅ hfence₅ => ?_)
        have hidle₅ := hidle₄.steady hs₅
        have hfenced₅ : Fenced calls t candidate f s₅ := ⟨hfence₅ f hfence₄, hidle₅.holding, hcandidate₄.steady hs₅⟩
        refine wp_handle (wp_mono (wp_detachAndPublish hidle₅ hfenced₅
          ⟨hdrawn, hlt, hunused _ rfl⟩) ?_ ?_)
        · rintro ⟨locals, replaced⟩ s₆ ⟨houtcome, hdone, hidleLocals⟩
          refine wp_bind (wp_mono (wp_finishFencing replaced houtcome ?_)
            (fun _ s₇ h => h) fun _ _ h => h)
          cases replaced with
          | true => simpa using hdone rfl
          | false => simp [hidleLocals rfl]
        · rintro ⟨locals, error⟩ s₆ ⟨houtcome, hne⟩
          exact wp_bind (wp_mono (wp_finishFencing false houtcome (by simpa using hne))
            (fun _ s₇ h => h.1) fun _ _ h => h)

end Replacing

section Releasing

variable {t : CallId} {s : LeaseState} {released fence i : Nat} {file : LeaseFile}

/-- In the release of call `t`, this name firmly names its lease file, which no longer changes. -/
structure Firm (calls : Calls) (t : CallId) (name : Name) (i : Nat) (file : LeaseFile)
    (s : LeaseState) : Prop where
  releasing : s.releasing t = true
  lt : i < s.nextInode
  file_eq : s.file i = file
  creator : file.creator = t
  lease : file.IsLease calls
  name : calls.alive s t = true → s.names name = some i

theorem Firm.file_later {name : Name} {s' : LeaseState} (h : Firm calls t name i file s)
    (hst : strict) (hl : Later calls strict t s s') : s'.file i = file := by
  obtain ⟨r, hr, -⟩ := h.lease
  rw [(hl.rely.own t rfl).frozen hst h.releasing i r h.lt (h.file_eq ▸ h.creator)
    (h.file_eq ▸ hr), h.file_eq]

theorem Firm.lock_later {s' : LeaseState} (h : Firm calls t .lock i file s) (hst : strict)
    (hl : Later calls strict t s s') : Firm calls t .lock i file s' :=
  ⟨(hl.rely.own t rfl).releasing.trans h.releasing, h.lt.trans_le hl.rely.base.next_le,
    h.file_later hst hl, h.creator, h.lease, fun ha => ((hl.rely.own t rfl).lock ha i
      (h.name (hl.rely.base.alive ha)) (h.file_eq ▸ h.creator)).1⟩

theorem Firm.lock_steady {s' : LeaseState} (h : Firm calls t .lock i file s) (hst : strict)
    (hs : Steady calls strict t s s') : Firm calls t .lock i file s' := by
  obtain ⟨r, hr, howner⟩ := h.lease
  have hfile : s'.file i = file := by
    rw [hs.kept.frozen hst h.releasing i r h.lt (h.file_eq ▸ h.creator) (h.file_eq ▸ hr), h.file_eq]
  exact ⟨hs.kept.releasing.trans h.releasing, h.lt.trans_le hs.kept.base.next_le, hfile, h.creator,
    ⟨r, hr, howner⟩, fun ha => (hs.kept.lock ha i (h.name (hs.kept.base.alive ha))
      (h.file_eq ▸ h.creator)).1⟩

theorem Firm.stale_later {s' : LeaseState} (h : Firm calls t (.stale released) i file s)
    (hst : strict) (hdrawn : s.drawnBy released = t) (hlt : released < s.nextUuid)
    (hl : Later calls strict t s s') : Firm calls t (.stale released) i file s' :=
  ⟨(hl.rely.own t rfl).releasing.trans h.releasing, h.lt.trans_le hl.rely.base.next_le,
    h.file_later hst hl, h.creator, h.lease, fun ha => ((hl.rely.own t rfl).stale ha released i hlt
      hdrawn (h.name (hl.rely.base.alive ha)) (h.file_eq ▸ h.creator)).1⟩

/-- Call `t` has set its own lock file aside. -/
structure OwnAside (calls : Calls) (t : CallId) (released i : Nat) (s : LeaseState) : Prop where
  inv : Inv calls s
  drawn : s.drawnBy released = t
  lt_uuid : released < s.nextUuid
  used : s.used (.stale released) = true
  names : ∀ j, s.names (.stale released) = some j → j = i
  lt : i < s.nextInode
  creator : (s.file i).creator = t
  lease : (s.file i).IsLease calls

theorem OwnAside.later {s' : LeaseState} (h : OwnAside calls t released i s)
    (hl : Later calls strict t s s') : OwnAside calls t released i s' where
  inv := hl.inv
  drawn := (hl.rely.base.drawn _ h.lt_uuid).trans h.drawn
  lt_uuid := h.lt_uuid.trans_le hl.rely.base.uuid_le
  used := hl.rely.base.used _ h.used
  names j hj := h.names j (hl.rely.base.rebind (.stale released) released j rfl h.used hj)
  lt := h.lt.trans_le hl.rely.base.next_le
  creator := (hl.rely.base.creator i h.lt).trans h.creator
  lease := h.lease.later hl.rely.base h.inv h.lt

/-- The fenced rename of the call's own lock, which ends its holding. -/
theorem wp_moveAway {Q : Unit → LeaseState → Prop} {E : LeaseError → LeaseState → Prop}
    (hchecked : Checked calls t fence i s) (hcreator : calls.alive s t = true →
      (s.file i).creator = t) (hdrawn : Drawn t released s)
    (hfirm : strict → Firm calls t .lock i file s)
    (hQ : ∀ s', OwnAside calls t released i s' → (calls.alive s' t = true → NotCarried t s') →
      (strict → Firm calls t (.stale released) i file s') → Q () s')
    (hE : ∀ e s', Inv calls s' → ¬ strict → E e s') :
    triple calls strict (.call t) (sys (.rename .lock (.stale released))) Q E s := by
  have hinv := hchecked.fenced.inv
  refine wp_callStep fun ch r s' hok ha hexec => ?_
  rcases execLive_rename hexec with ⟨rfl, ⟨e, rfl⟩, he⟩ | ⟨j, hj, rfl, rfl⟩
  · refine ⟨guarantee_self hinv, fun s'' hl => ⟨(fun _ hv => by cases hv), fun e _ =>
      hE e s'' hl.inv fun hst => ?_⟩⟩
    have := he (hok.2 hst)
    simp [hchecked.lock ha] at this
  · obtain rfl : i = j := Option.some.inj ((hchecked.lock ha).symm.trans hj)
    have hmine := hcreator ha
    have hrename : s.rename t .lock (.stale released) i =
        ((s.setName (.stale released) (some i)).setHolding t false).setName .lock none := by
      simp [LeaseState.rename, hmine]
    have hlease := hinv.lock_lease i hj
    have hg₁ : (discipline calls strict).Guarantee (.call t) _ _ :=
      guarantee_setAside hinv hdrawn.drawnBy hdrawn.lt hdrawn.unused
      hchecked.lt hlease
    have hg₂ : (discipline calls strict).Guarantee (.call t) (s.setName (.stale released) (some i))
        ((s.setName (.stale released) (some i)).setHolding t false) := by
      refine guarantee_frame hg₁.inv
        ⟨fun _ h => h, rfl, rfl, rfl, rfl, rfl, rfl, fun _ => rfl, fun _ => rfl⟩ rfl (fun _ _ => rfl)
        (fun _ _ => rfl) (fun u hu => ?_) fun u hu => .inl ?_
      · have : u ≠ t := fun h => hu (by rw [h])
        simp [LeaseState.setHolding, this]
      · by_cases hut : u = t
        · simp [LeaseState.setHolding, hut] at hu
        · simpa [LeaseState.setHolding, hut] using hu
    have hg₃ : (discipline calls strict).Guarantee (.call t)
        ((s.setName (.stale released) (some i)).setHolding t false)
        (((s.setName (.stale released) (some i)).setHolding t false).setName .lock none) := by
      refine guarantee_detach (i := i) hg₂.inv (by simpa [LeaseState.setHolding, setName_names] using hj)
        (by simp [LeaseState.setHolding]) fun w hw _ => ⟨?_, fun j hf => ?_⟩
      · show (s.file i).creator ≠ w
        rw [hmine]
        exact hw.symm
      · refine hchecked.fenced.unique ha hw j ⟨?_, hf.creator, hf.content⟩
        simpa [LeaseState.setHolding, setName_names] using hf.name
    rw [hrename]
    have hg := (hg₁.trans hg₂).trans hg₃
    have hmoved : strict → Firm calls t (.stale released) i file
        (((s.setName (.stale released) (some i)).setHolding t false).setName .lock none) := by
      intro hst
      obtain ⟨hreleasing, hlt, hfile, hc, hl, -⟩ := hfirm hst
      exact ⟨hreleasing, hlt, hfile, hc, hl, fun _ => by simp [LeaseState.setHolding, setName_names]⟩
    refine ⟨hg, fun s'' hl => ⟨fun _ _ => hQ s'' (OwnAside.later ⟨hg.inv, hdrawn.drawnBy, hdrawn.lt,
      ?_, ?_, hchecked.lt, hmine, hlease⟩ hl) (fun ha' => (hl.rely.own t rfl).notCarried ha' ?_)
      fun hst => (hmoved hst).stale_later hst hdrawn.drawnBy hdrawn.lt hl, fun _ hv => by cases hv⟩⟩
    · simp [LeaseState.setHolding, LeaseState.setName]
    · intro j hj
      simpa [LeaseState.setHolding, setName_names] using hj.symm
    · intro j hj
      simp [setName_names] at hj

/-- The rename back to a lock path that is free. -/
theorem wp_moveBack {Q : Unit → LeaseState → Prop} {E : LeaseError → LeaseState → Prop} (haside : OwnAside calls t
    released i s) (hQ : ∀ s', Inv calls s' → Q () s') (hE : ∀ e s', OwnAside calls t released i s' → E e s') : triple
    calls strict (.call t) (sys (.rename (.stale released) .lock)) Q E s := by
  refine wp_callStep fun ch r s' hok ha hexec => ?_
  rcases execLive_rename hexec with ⟨rfl, ⟨e, rfl⟩, -⟩ | ⟨j, hj, rfl, rfl⟩
  · exact ⟨guarantee_self haside.inv, fun s'' hl => ⟨(fun _ hv => by cases hv), fun e _ =>
      hE e s'' (haside.later hl)⟩⟩
  · obtain rfl := haside.names j hj
    have hfree : s.names .lock = none := hok.1
    have hrename : s.rename t (.stale released) .lock j =
        (s.setName .lock (some j)).setName (.stale released) none := by
      simp [LeaseState.rename]
    have hg₁ : (discipline calls strict).Guarantee (.call t) _ _ :=
      guarantee_publish (t := t) haside.inv hfree haside.lt haside.lease
      fun w hw _ => by rw [haside.creator]; exact hw.symm
    have hg₂ : (discipline calls strict).Guarantee (.call t) (s.setName .lock (some j))
        ((s.setName .lock (some j)).setName (.stale released) none) := by
      refine guarantee_discard hg₁.inv rfl fun w k hw _ _ hk hc => ?_
      obtain rfl := haside.names k (by simpa [setName_names] using hk)
      exact absurd (hc.symm.trans haside.creator) hw
    rw [hrename]
    have hg := hg₁.trans hg₂
    exact ⟨hg, fun s'' hl => ⟨fun _ _ => hQ s'' hl.inv, fun _ hv => by cases hv⟩⟩

theorem wp_unlinkReleased {Q : Unit → LeaseState → Prop} {E : LeaseError → LeaseState → Prop} (haside : OwnAside calls t
    released i s) (hfirm : strict → Firm calls t (.stale released) i file s) (hQ : ∀ s', Steady calls strict t s s' → Q
    () s') (hE : ∀ e s', Later calls strict t s s' → ¬ strict → E e s') : triple calls strict (.call t) (sys (.unlink
    (.stale released))) Q E s := by
  refine wp_callStep fun ch r s' hok ha hexec => ?_
  rcases execLive_unlink hexec with ⟨rfl, e, rfl, he⟩ | ⟨-, rfl, rfl⟩
  · refine ⟨guarantee_self haside.inv, fun s'' hl => ⟨(fun _ hv => by cases hv), fun e _ =>
      hE e s'' hl fun hst => ?_⟩⟩
    have := (he (hok.2 hst)).2
    simp [(hfirm hst).name ha] at this
  · have hg : (discipline calls strict).Guarantee (.call t) s (s.setName (.stale released) none) := by
      refine guarantee_discard haside.inv rfl fun w k hw _ _ hk hc => ?_
      obtain rfl := haside.names k hk
      exact absurd (hc.symm.trans haside.creator) hw
    refine ⟨hg, fun s'' hl => ⟨fun _ _ => hQ s'' ?_, fun _ hv => by cases hv⟩⟩
    exact .step hg hl (by simp [setName_names]) rfl rfl (fun n => by simp [LeaseState.setName])
      (fun _ _ _ _ => rfl) haside.inv

/-- A snapshot of the call's own lock, which a strict run lets it read as it stands. -/
theorem wp_readOwnLock {Q : Option LeaseFileSnapshot → LeaseState → Prop}
    {E : LeaseError → LeaseState → Prop} (hinv : Inv calls s)
    (hfirm : strict → Firm calls t .lock i file s)
    (hQ : ∀ snapshot s', Later calls strict t s s' →
      (strict → snapshot = some ⟨file.content, file.stat i⟩) → Q snapshot s')
    (hE : ∀ e s', Inv calls s' → ¬ strict → E e s') :
    triple calls strict (.call t) (readStableSnapshot .lock) Q E s := by
  by_cases hst : strict
  · refine wp_readStableSnapshot_frozen (i := i) (f := file) hst (by simp) hinv (fun s' hl ha => ?_)
      fun s' hl => hQ _ s' hl fun _ => rfl
    have hf := (hfirm hst).lock_later hst hl
    exact ⟨hf.name ha, hf.file_eq⟩
  · exact wp_readStableSnapshot hinv
      (fun snapshot s' _ hl _ => hQ snapshot s' (hl (by simp)) fun h => absurd h hst)
      fun e s' _ hl _ => hE e s' (hl (by simp)).inv hst

/-- The same snapshot under the fence. -/
theorem wp_checkOwnLock {before : LeaseFileSnapshot} {Q : Option LeaseFileSnapshot → LeaseState → Prop}
    {E : LeaseError → LeaseState → Prop} (hfence : HasFence calls t fence s)
    (hfirm : strict → Firm calls t .lock i file s ∧ before = ⟨file.content, file.stat i⟩)
    (hQ : ∀ snapshot s', Later calls strict t s s' → (snapshot = some before →
      Checked calls t fence before.stat.ino s' ∧ (calls.alive s' t = true → ∀ r,
        before.raw = .record r → (s'.file before.stat.ino).content = .record r)) →
      (strict → snapshot = some before) → Q snapshot s')
    (hE : ∀ e s', Inv calls s' → ¬ strict → E e s') :
    triple calls strict (.call t) (readStableSnapshot .lock) Q E s := by
  by_cases hst : strict
  · obtain ⟨hf, rfl⟩ := hfirm hst
    refine wp_readStableSnapshot_frozen (i := i) (f := file) hst (by simp) hfence.inv (fun s' hl ha => ?_) fun s' hl => ?_
    · have hf' := hf.lock_later hst hl
      exact ⟨hf'.name ha, hf'.file_eq⟩
    · have hf' := hf.lock_later hst hl
      refine hQ _ s' hl (fun _ => ⟨⟨hfence.later hl, hf'.lt, hf'.name⟩, fun _ r hr => ?_⟩) fun _ => rfl
      show (s'.file i).content = _
      rw [hf'.file_eq]
      exact hr
  · exact wp_checkLock hfence
      (fun snapshot s' hl hchecked => hQ snapshot s' hl (hchecked before) fun h => absurd h hst)
      fun e s' hl h => hE e s' hl.inv h

theorem LeaseFileSnapshot.ownedBy_iff {v : LeaseFileSnapshot} {token : OwnerToken} :
    v.ownedBy token = true ↔ ∃ r, v.raw = .record r ∧ r.owner = some token := by
  cases hraw : v.raw <;> simp [LeaseFileSnapshot.ownedBy, hraw, parseLeaseRecord]

theorem wp_moveAndDrop {before : LeaseFileSnapshot} (hfence : HasFence calls t fence s)
    (hdrawn : Drawn t released s) (howned : before.ownedBy (.lease (calls.owner t)) = true)
    (hfirm : strict → Firm calls t .lock i file s ∧ before = ⟨file.content, file.stat i⟩) :
    triple calls strict (.call t) (moveAndDrop before released)
      (fun moved s' => moved = false ∧ Inv calls s' ∧
        (strict → calls.alive s' t = true → NotCarried t s'))
      (fun (moved, _) s' => ¬ strict ∧ Inv calls s' ∧
        (moved = true → ∃ i, OwnAside calls t released i s')) s := by
  obtain ⟨r, hraw, hr⟩ := LeaseFileSnapshot.ownedBy_iff.mp howned
  refine wp_bind (wp_during (wp_checkOwnLock hfence hfirm (fun checked s₁ hl₁ hchecked hsame => ?_)
    fun e s₁ hinv hst => ⟨hst, hinv, by simp⟩))
  split
  case isTrue hne => exact ⟨rfl, hl₁.inv, fun hst => absurd (hsame hst) hne⟩
  case isFalse heq =>
    obtain rfl : checked = some before := not_not.mp heq
    obtain ⟨hlock, hcontent⟩ := hchecked rfl
    have hcreator : calls.alive s₁ t = true → (s₁.file before.stat.ino).creator = t := fun ha =>
      (hl₁.inv.records _ _ (hcontent ha r hraw)).eq_of_token hr rfl
    have hfirm₁ : strict → Firm calls t .lock before.stat.ino file s₁ := fun hst => by
      obtain ⟨hf, rfl⟩ := hfirm hst
      exact hf.lock_later hst hl₁
    refine wp_bind (wp_during (wp_moveAway hlock hcreator (hdrawn.steady (.of_later hl₁)) hfirm₁
      (fun s₂ haside₂ hgone₂ hfirm₂ => ?_) fun e s₂ hinv hst => ⟨hst, hinv, by simp⟩))
    have hread : triple calls strict (.call t) (readStableSnapshot (.stale released))
        (fun moved s' => OwnAside calls t released before.stat.ino s' ∧
          (calls.alive s' t = true → NotCarried t s') ∧
          (strict → Firm calls t (.stale released) before.stat.ino file s') ∧
          (strict → moved = some before))
        (fun _ s' => ¬ strict ∧ OwnAside calls t released before.stat.ino s') s₂ := by
      have hlater : ∀ s', Later calls strict t s₂ s' →
          OwnAside calls t released before.stat.ino s' ∧
          (calls.alive s' t = true → NotCarried t s') ∧
          (strict → Firm calls t (.stale released) before.stat.ino file s') := fun s' hl =>
        ⟨haside₂.later hl, fun ha => (hl.rely.own t rfl).notCarried ha
          (hgone₂ (hl.rely.base.alive ha)), fun hst =>
            (hfirm₂ hst).stale_later hst haside₂.drawn haside₂.lt_uuid hl⟩
      by_cases hst : strict
      · refine wp_readStableSnapshot_frozen (i := before.stat.ino) (f := file) hst (by simp)
          haside₂.inv (fun s' hl ha => ?_) fun s' hl => ?_
        · have hf := (hlater s' hl).2.2 hst
          exact ⟨hf.name ha, hf.file_eq⟩
        · obtain ⟨h, h', h''⟩ := hlater s' hl
          exact ⟨h, h', h'', fun _ => by rw [(hfirm hst).2]; rfl⟩
      · refine wp_readStableSnapshot haside₂.inv (fun snapshot s' _ hl _ => ?_)
          fun e s' _ hl h => ⟨h, (hlater s' (hl (by simp))).1⟩
        obtain ⟨h, h', h''⟩ := hlater s' (hl (by simp))
        exact ⟨h, h', h'', fun h => absurd h hst⟩
    refine wp_bind (wp_during (wp_mono hread ?_ fun e s₃ h => ⟨h.1, h.2.inv, fun _ => ⟨_, h.2⟩⟩))
    rintro moved s₃ ⟨haside₃, hgone₃, hfirm₃, hmoved⟩
    split
    case isTrue hne =>
      exact wp_bind (wp_during (wp_moveBack haside₃
        (fun s₄ hinv => ⟨rfl, hinv, fun hst => absurd (hmoved hst) hne⟩)
        fun e s₄ h => ⟨fun hst => hne (hmoved hst), h.inv, fun _ => ⟨_, h⟩⟩))
    case isFalse =>
      refine wp_bind (wp_during (wp_unlinkReleased haside₃ hfirm₃ (fun s₄ hs₄ => ?_)
        fun e s₄ hl₄ hst => ⟨hst, hl₄.inv, fun _ => ⟨_, haside₃.later hl₄⟩⟩))
      exact ⟨rfl, hs₄.inv, fun _ ha =>
        hs₄.kept.notCarried ha (hgone₃ (hs₄.kept.base.alive ha))⟩

theorem wp_finishRelease {moved : Bool} (hinv : Inv calls s)
    (haside : moved = true → ¬ strict ∧ ∃ i, OwnAside calls t released i s)
    (hgone : strict → calls.alive s t = true → NotCarried t s) :
    triple calls strict (.call t) (finishRelease calls t released moved)
      (fun _ s' => Inv calls s' ∧ (strict → calls.alive s' t = true → NotCarried t s'))
      (fun _ s' => Inv calls s' ∧ ¬ strict) s := by
  have hrelease : ∀ s₁, Inv calls s₁ → (strict → calls.alive s₁ t = true → NotCarried t s₁) →
      triple calls strict (.call t) (releaseReclaimFenceSync (.release (calls.owner t)))
        (fun _ s' => Inv calls s' ∧ (strict → calls.alive s' t = true → NotCarried t s'))
        (fun _ s' => Inv calls s' ∧ ¬ strict) s₁ := fun s₁ hinv₁ hgone₁ =>
    wp_mono (wp_releaseReclaimFenceSync hinv₁ rfl)
      (fun _ s₂ hs => ⟨hs.inv, fun hst ha =>
        hs.kept.notCarried ha (hgone₁ hst (hs.kept.base.alive ha))⟩)
      fun e s₂ hs => ⟨hs.1.inv, hs.2⟩
  cases moved with
  | false => exact hrelease s hinv hgone
  | true =>
    obtain ⟨hst, j, h⟩ := haside rfl
    have hskip : ∀ s₁, Inv calls s₁ → triple calls strict (.call t)
        (releaseReclaimFenceSync (.release (calls.owner t)))
        (fun _ s' => Inv calls s' ∧ (strict → calls.alive s' t = true → NotCarried t s'))
        (fun _ s' => Inv calls s' ∧ ¬ strict) s₁ := fun s₁ hinv₁ =>
      hrelease s₁ hinv₁ fun h => absurd h hst
    refine wp_bind (wp_quietStep (c := .exists .lock) trivial h.inv
      fun ch r s₁ _ _ _ hl₁ => ⟨fun replaced _ => ?_, fun e _ => ⟨hl₁.inv, hst⟩⟩)
    split
    · exact wp_bind (wp_moveBack (h.later hl₁) (fun s₂ hinv₂ => hskip s₂ hinv₂)
        fun e s₂ h₂ => ⟨h₂.inv, hst⟩)
    · exact hskip s₁ hl₁.inv

theorem wp_releaseOwnedLease (hinv : Inv calls s) (howner : strict → Owner calls t s) :
    triple calls strict (.call t) (releaseOwnedLease calls t)
      (fun _ s' => Inv calls s' ∧ (strict → calls.alive s' t = true → NotCarried t s'))
      (fun _ s' => Inv calls s' ∧ ¬ strict) s := by
  refine wp_bind (wp_callStep fun ch r s' _ ha hexec => ?_)
  obtain ⟨rfl, rfl⟩ : r = .ok () ∧ s' = s.setReleasing t true := by
    cases ch <;> simp only [execLive, Option.some.injEq, Prod.mk.injEq] at hexec <;>
      exact ⟨hexec.1.symm, hexec.2.symm⟩
  have hg : (discipline calls strict).Guarantee (.call t) s (s.setReleasing t true) :=
    guarantee_frame hinv ⟨fun _ h => h, rfl, rfl, rfl, rfl, rfl, rfl, fun _ => rfl, fun _ => rfl⟩ rfl
      (fun u hu => by
        have : u ≠ t := fun h => hu (by rw [h])
        simp [LeaseState.setReleasing, this]) (fun _ _ => rfl) (fun _ _ => rfl) fun _ h => .inl h
  refine ⟨hg, fun s₁ hl₁ => ⟨fun _ _ => ?_, fun _ hv => by cases hv⟩⟩
  obtain ⟨i, file, hfirm₁⟩ : ∃ i file, strict → Firm calls t .lock i file s₁ := by
    by_cases hst : strict
    · obtain ⟨i, hi, hc⟩ := (howner hst).mine ha
      have hfirm : Firm calls t .lock i (s.file i) (s.setReleasing t true) :=
        ⟨by simp [LeaseState.setReleasing], hinv.names_lt _ _ hi, rfl, hc, hinv.lock_lease i hi, fun _ => hi⟩
      exact ⟨i, s.file i, fun _ => hfirm.lock_later hst hl₁⟩
    · exact ⟨0, s.file 0, fun h => absurd h hst⟩
  refine wp_bind (wp_readOwnLock hl₁.inv hfirm₁ (fun before s₂ hl₂ hbefore => ?_)
    fun e s₂ hinv₂ hst => ⟨hinv₂, hst⟩)
  have hfirm₂ : strict → Firm calls t .lock i file s₂ := fun hst =>
    (hfirm₁ hst).lock_later hst hl₂
  cases before with
  | none => exact ⟨hl₂.inv, fun hst => by simpa using hbefore hst⟩
  | some before =>
    have hsame : strict → before = ⟨file.content, file.stat i⟩ := fun hst =>
      Option.some.inj (hbefore hst)
    have hown : strict → before.ownedBy (.lease (calls.owner t)) = true := fun hst => by
      obtain ⟨r, hr, howner⟩ := (hfirm₂ hst).lease
      rw [(hfirm₂ hst).creator] at howner
      exact LeaseFileSnapshot.ownedBy_iff.mpr ⟨r, by rw [hsame hst]; exact hr, howner⟩
    show triple calls strict (.call t) (if (!before.ownedBy (.lease (calls.owner t))) = true then
      pure () else _) _ _ s₂
    split
    case isTrue hother => exact ⟨hl₂.inv, fun hst => by simp [hown hst] at hother⟩
    case isFalse howned =>
      have howned : before.ownedBy (.lease (calls.owner t)) = true := by simpa using howned
      refine wp_bind (wp_acquireReclaimFence hl₂.inv rfl (fun fenced s₃ hs₃ hfence hfenced => ?_)
        fun e s₃ hs₃ hnot => ⟨hs₃.inv, fun hst => hnot ⟨hst, (hfirm₂ hst).releasing⟩⟩)
      have hfirm₃ : strict → Firm calls t .lock i file s₃ := fun hst =>
        (hfirm₂ hst).lock_steady hst hs₃
      cases fenced with
      | false =>
        exact ⟨hs₃.inv, fun hst => by simpa using hfenced hst (hfirm₂ hst).releasing⟩
      | true =>
        obtain ⟨f, hfence₃⟩ : ∃ f, HasFence calls t f s₃ := by
          by_cases ha₃ : calls.alive s₃ t = true
          · obtain ⟨f, hf⟩ := hfence rfl ha₃
            exact ⟨f, hs₃.inv, fun _ => hf⟩
          · exact ⟨0, hs₃.inv, fun h => absurd h ha₃⟩
        refine wp_bind (wp_randomUUID hs₃.inv fun n s₄ hdrawn hlt hunused hs₄ hfence₄ => ?_)
        refine wp_handle (wp_mono (wp_moveAndDrop (hfence₄ f hfence₃)
          ⟨hdrawn, hlt, hunused _ rfl⟩ howned fun hst =>
            ⟨(hfirm₃ hst).lock_steady hst hs₄, hsame hst⟩) ?_ ?_)
        · rintro moved s₅ ⟨rfl, hinv₅, hgone⟩
          exact wp_finishRelease hinv₅ (by simp) hgone
        · rintro ⟨moved, error⟩ s₅ ⟨hst, hinv₅, haside⟩
          exact wp_bind (wp_mono (wp_finishRelease hinv₅ (fun h => ⟨hst, haside h⟩)
            fun h => absurd h hst) (fun _ s₆ h => ⟨h.1, hst⟩) fun e s₆ h => h)

end Releasing

end RabiRoute.Lease
