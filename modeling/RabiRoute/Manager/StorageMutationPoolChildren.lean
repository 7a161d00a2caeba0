import RabiRoute.Manager.StorageMutationPool

/-!
# The children of the pool

What each event does to the children and to the requests that they were sent.  `Guarded`: a request
that is neither answered nor cut off by the end of its child keeps the pool from sending another.
`Awaited`: a termination that counts as confirmed is one whose close was observed.
-/

open Transitions

namespace RabiRoute.StorageMutationPool

variable {T V : Type} {s s' : Pool T V} {a a' : ActiveMutation T} {i id : Nat}

namespace Pool

/-! ## Steps that only prepare a termination -/

/-- The active mutation is the same, up to the marks of its termination. -/
structure SameActive (a a' : ActiveMutation T) : Prop where
  pending : a'.pending = a.pending
  slot : a'.slot = a.slot
  request : a'.request = a.request

/-- The step sends nothing, closes no child and leaves the active mutation. -/
structure SameChildren (s s' : Pool T V) : Prop where
  sent : s'.sent = s.sent
  blockedSlot : s'.blockedSlot = s.blockedSlot
  childSlot : s'.childSlot = s.childSlot
  spawnedChildren : s'.spawnedChildren = s.spawnedChildren
  closed : ∀ i, (s'.slots i).closed = (s.slots i).closed
  active : ∀ a', s'.active = some a' → ∃ a, s.active = some a ∧ SameActive a a'
  idle : s'.active = none → s.active = none

/-- The step also settles nothing and decides nothing. -/
structure Quiet (s s' : Pool T V) : Prop extends SameChildren s s' where
  queue : s'.queue = s.queue
  settled : s'.settled = s.settled
  decisions : s'.decisions = s.decisions
  refused : s'.refused = s.refused
  admission : ∀ a a', s.active = some a → s'.active = some a' → a'.admission = a.admission
  calls : s'.calls = s.calls
  accepting : s'.accepting = s.accepting
  stopped : s'.stateValue = .stopped → s.stateValue = .stopped

theorem SameChildren.of_eq (hsent : s'.sent = s.sent) (hblocked : s'.blockedSlot = s.blockedSlot)
    (hchild : s'.childSlot = s.childSlot) (hspawned : s'.spawnedChildren = s.spawnedChildren)
    (hslots : s'.slots = s.slots) (hactive : s'.active = s.active) : SameChildren s s' :=
  ⟨hsent, hblocked, hchild, hspawned, fun i => by rw [hslots],
    fun a h => ⟨a, hactive ▸ h, rfl, rfl, rfl⟩, fun h => hactive ▸ h⟩

theorem Quiet.refl (s : Pool T V) : Quiet s s :=
  ⟨.of_eq rfl rfl rfl rfl rfl rfl, rfl, rfl, rfl, rfl, fun a a' h h' => by cases h.symm.trans h'; rfl, rfl, rfl, id⟩

theorem Quiet.trans {t : Pool T V} (h : Quiet s s') (h' : Quiet s' t) : Quiet s t where
  queue := h'.queue.trans h.queue
  sent := h'.sent.trans h.sent
  settled := h'.settled.trans h.settled
  decisions := h'.decisions.trans h.decisions
  refused := h'.refused.trans h.refused
  calls := h'.calls.trans h.calls
  accepting := h'.accepting.trans h.accepting
  blockedSlot := h'.blockedSlot.trans h.blockedSlot
  childSlot := h'.childSlot.trans h.childSlot
  spawnedChildren := h'.spawnedChildren.trans h.spawnedChildren
  closed i := (h'.closed i).trans (h.closed i)
  stopped hs := h.stopped (h'.stopped hs)
  active a ha := by
    obtain ⟨b, hb, hab⟩ := h'.active a ha
    obtain ⟨c, hc, hbc⟩ := h.active b hb
    exact ⟨c, hc, hab.pending.trans hbc.pending, hab.slot.trans hbc.slot, hab.request.trans hbc.request⟩
  admission a c ha hc := by
    obtain ⟨b, hb, -⟩ := h'.active c hc
    exact (h'.admission b c hb hc).trans (h.admission a b ha hb)
  idle ha := h.idle (h'.idle ha)

theorem Quiet.setSlot {slot : ChildSlot} (h : slot.closed = (s.slots i).closed) : Quiet s (s.setSlot i slot) :=
  { Quiet.refl s with
    closed := fun j => by
      show (Function.update s.slots i slot j).closed = _
      by_cases hj : j = i
      · rw [hj, Function.update_self, h]
      · rw [Function.update_of_ne hj] }

theorem Quiet.terminateAndConfirm (i : Nat) : Quiet s (s.terminateAndConfirm i).2 := by
  unfold Pool.terminateAndConfirm
  dsimp only
  split
  · exact .refl s
  · split
    · exact .refl s
    · exact .setSlot rfl

theorem Quiet.tasks (tasks : List Task) : Quiet s { s with tasks } :=
  { Quiet.refl s with }

theorem Quiet.marks (terminating listening : Bool) (h : s.active = some a) :
    Quiet s { s with active := some { a with terminating, listening } } :=
  { Quiet.refl s with
    active := fun a' ha' => by
      obtain rfl := Option.some.inj ha'
      exact ⟨a, h, rfl, rfl, rfl⟩
    admission := fun b b' hb hb' => by
      obtain rfl := Option.some.inj (h.symm.trans hb)
      obtain rfl := Option.some.inj hb'
      rfl
    idle := fun h => by cases h }

theorem Quiet.terminateActive (cause : MutationError) : Quiet s (s.terminateActive cause) := by
  unfold Pool.terminateActive
  split
  · exact .refl s
  case h_2 active hactive =>
    split
    · exact .refl s
    · exact (Quiet.marks _ _ hactive).trans ((Quiet.terminateAndConfirm _).trans (.tasks _))

theorem Quiet.terminateIdleChild (i : Nat) : Quiet s (s.terminateIdleChild i) :=
  (Quiet.terminateAndConfirm i).trans (.tasks _)

/-! ## Which requests keep the pool from sending another -/

/-- The answer of the request was accepted, or its child has closed, or the pool is blocked until
then.  (A pool that is blocked for a closed child stays blocked.) -/
def Covered (s : Pool T V) (r : Sent T) : Prop :=
  r.accepted = true ∨ (s.slots r.slot).closed = true ∨
    ∃ b, s.blockedSlot = some b ∧ ((s.slots b).closed = true ∨ b = r.slot)

structure Guarded (s : Pool T V) : Prop where
  covered : ∀ r ∈ s.sent, Covered s r ∨ ∃ a, s.active = some a ∧ a.pending.id = r.id
  answered : ∀ r ∈ s.sent, r.accepted = true → r.answered = true
  own : ∀ a, s.active = some a → ∀ r ∈ s.sent, r.slot = a.slot → r.answered = false → r.id = a.pending.id
  live : ∀ i < s.spawnedChildren, (s.slots i).closed = false →
    s.childSlot = some i ∨ ∃ b, s.blockedSlot = some b ∧ (s.slots b).closed = true
  unique : ∀ i < s.spawnedChildren, ∀ j < s.spawnedChildren, (s.slots i).closed = false →
    (s.slots j).closed = false → i = j
  spawned : ∀ i, s.childSlot = some i → i < s.spawnedChildren
  blockedSpawned : ∀ b, s.blockedSlot = some b → b < s.spawnedChildren
  sentSpawned : ∀ r ∈ s.sent, r.slot < s.spawnedChildren
  activeSent : ∀ a, s.active = some a → ∃ r ∈ s.sent, r.id = a.pending.id ∧ r.slot = a.slot ∧ r.request = a.request
  activeSlot : ∀ a, s.active = some a → ∀ r ∈ s.sent, r.id = a.pending.id → r.slot = a.slot

theorem SameChildren.covered (h : SameChildren s s') {r : Sent T} : Covered s' r ↔ Covered s r := by
  unfold Covered
  simp only [h.closed, h.blockedSlot]

theorem Guarded.same (hg : s.Guarded) (h : SameChildren s s') : s'.Guarded where
  covered r hr := by
    rw [h.sent] at hr
    rcases hg.covered r hr with hcovered | ⟨a, ha, hid⟩
    · exact .inl (h.covered.mpr hcovered)
    · cases ha' : s'.active with
      | none => rw [h.idle ha'] at ha; cases ha
      | some a' =>
        obtain ⟨b, hb, hsame⟩ := h.active a' ha'
        obtain rfl := Option.some.inj (ha.symm.trans hb)
        exact .inr ⟨a', rfl, (congrArg PendingMutation.id hsame.pending).trans hid⟩
  answered := h.sent ▸ hg.answered
  own a' ha' r hr hslot hanswered := by
    obtain ⟨a, ha, hsame⟩ := h.active a' ha'
    rw [h.sent] at hr
    rw [hsame.pending]
    exact hg.own a ha r hr (hslot.trans hsame.slot) hanswered
  live i hi hc := by
    rw [h.spawnedChildren] at hi
    rw [h.closed] at hc
    simp only [h.childSlot, h.blockedSlot, h.closed]
    exact hg.live i hi hc
  unique i hi j hj hci hcj := by
    rw [h.spawnedChildren] at hi hj
    rw [h.closed] at hci hcj
    exact hg.unique i hi j hj hci hcj
  spawned i hi := by
    rw [h.childSlot] at hi
    exact h.spawnedChildren ▸ hg.spawned i hi
  blockedSpawned b hb := by
    rw [h.blockedSlot] at hb
    exact h.spawnedChildren ▸ hg.blockedSpawned b hb
  sentSpawned r hr := by
    rw [h.sent] at hr
    exact h.spawnedChildren ▸ hg.sentSpawned r hr
  activeSent a' ha' := by
    obtain ⟨a, ha, hsame⟩ := h.active a' ha'
    rw [h.sent, hsame.pending, hsame.slot, hsame.request]
    exact hg.activeSent a ha
  activeSlot a' ha' r hr hid := by
    obtain ⟨a, ha, hsame⟩ := h.active a' ha'
    rw [h.sent] at hr
    rw [hsame.pending] at hid
    exact (hg.activeSlot a ha r hr hid).trans hsame.slot.symm

theorem Guarded.activeSpawned (hg : s.Guarded) (ha : s.active = some a) : a.slot < s.spawnedChildren := by
  obtain ⟨r, hr, -, hslot, -⟩ := hg.activeSent a ha
  exact hslot ▸ hg.sentSpawned r hr

theorem active_settleActive (outcome : Outcome V) (ha : s.active = some a) (hid : a.pending.id = id) :
    (s.settleActive id outcome).active = none := by
  simp [settleActive, ha, hid, settle]

theorem settleActive_of_ne {outcome : Outcome V} (h : ∀ a, s.active = some a → a.pending.id ≠ id) :
    s.settleActive id outcome = s := by
  unfold settleActive
  split
  · rfl
  case h_2 a ha => rw [if_pos (h a ha)]

/-- The active mutation may settle once its request is covered. -/
theorem Guarded.settleActive {outcome : Outcome V} (hg : s.Guarded)
    (hcovered : ∀ r ∈ s.sent, r.id = id → Covered s r) : (s.settleActive id outcome).Guarded := by
  by_cases h : ∃ a, s.active = some a ∧ a.pending.id = id
  case neg =>
    rw [settleActive_of_ne fun a ha hid => h ⟨a, ha, hid⟩]
    exact hg
  case pos =>
    obtain ⟨a, ha, hid⟩ := h
    have hnone := active_settleActive outcome ha hid
    have hrest : (s.settleActive id outcome).sent = s.sent ∧
        (s.settleActive id outcome).blockedSlot = s.blockedSlot ∧
        (s.settleActive id outcome).childSlot = s.childSlot ∧
        (s.settleActive id outcome).spawnedChildren = s.spawnedChildren ∧
        (s.settleActive id outcome).slots = s.slots := by
      simp [Pool.settleActive, ha, hid, settle]
    obtain ⟨hsent, hblocked, hchild, hspawned, hslots⟩ := hrest
    have hcover : ∀ r, Covered s r → Covered (s.settleActive id outcome) r := fun r h => by
      unfold Covered at h ⊢
      rwa [hblocked, hslots]
    refine ⟨fun r hr => ?_, hsent ▸ hg.answered, fun b hb => ?_, ?_, ?_, ?_, ?_, ?_,
      fun b hb => ?_, fun b hb => ?_⟩
    · rw [hsent] at hr
      rcases hg.covered r hr with hc | ⟨b, hb, hidb⟩
      · exact .inl (hcover r hc)
      · obtain rfl := Option.some.inj (ha.symm.trans hb)
        exact .inl (hcover r (hcovered r hr (hidb.symm.trans hid)))
    · rw [hnone] at hb; cases hb
    · rw [hspawned, hslots, hchild, hblocked]; exact hg.live
    · rw [hspawned, hslots]; exact hg.unique
    · rw [hspawned, hchild]; exact hg.spawned
    · rw [hspawned, hblocked]; exact hg.blockedSpawned
    · rw [hspawned, hsent]; exact hg.sentSpawned
    · rw [hnone] at hb; cases hb
    · rw [hnone] at hb; cases hb

theorem Guarded.blockTermination (hg : s.Guarded) (hi : i < s.spawnedChildren) :
    (s.blockTermination i).Guarded where
  covered r hr := by
    rcases hg.covered r hr with (hacc | hc | ⟨b, hb, hcover⟩) | hactive
    · exact .inl (.inl hacc)
    · exact .inl (.inr (.inl hc))
    · cases hir : (s.slots i).closed with
      | true => exact .inl (.inr (.inr ⟨i, rfl, .inl hir⟩))
      | false =>
        cases hrs : (s.slots r.slot).closed with
        | true => exact .inl (.inr (.inl hrs))
        | false =>
          exact .inl (.inr (.inr ⟨i, rfl, .inr (hg.unique i hi r.slot (hg.sentSpawned r hr) hir hrs)⟩))
    · exact .inr hactive
  answered := hg.answered
  own := hg.own
  live j hj hc := by
    cases hic : (s.slots i).closed with
    | true => exact .inr ⟨i, rfl, hic⟩
    | false => exact .inl (congrArg some (hg.unique i hi j hj hic hc))
  unique := hg.unique
  spawned j hj := Option.some.inj hj ▸ hi
  blockedSpawned j hj := Option.some.inj hj ▸ hi
  sentSpawned := hg.sentSpawned
  activeSent := hg.activeSent
  activeSlot := hg.activeSlot

theorem blockTermination_covers {r : Sent T} (h : r.slot = i) : Covered (s.blockTermination i) r :=
  .inr (.inr ⟨i, rfl, .inr h.symm⟩)

/-- The next request goes to the only child that lives, all of whose requests are answered. -/
theorem Guarded.send {t : Pool T V} (hg : s.Guarded) (hidle : s.active = none) (hfree : s.blockedSlot = none)
    (hslots : ∀ j, j < s.spawnedChildren → (t.slots j).closed = (s.slots j).closed)
    (hsent : t.sent = s.sent ++ [{ id := a.pending.id, slot := a.slot, request := a.request }])
    (hfresh : ∀ r ∈ s.sent, r.id ≠ a.pending.id) (hactive : t.active = some a)
    (hchild : t.childSlot = some a.slot) (hblocked : t.blockedSlot = none)
    (hspawned : a.slot < t.spawnedChildren) (hopen : (t.slots a.slot).closed = false)
    (hnew : t.spawnedChildren = s.spawnedChildren ∨
      (t.spawnedChildren = s.spawnedChildren + 1 ∧ a.slot = s.spawnedChildren ∧
        ∀ j < s.spawnedChildren, (s.slots j).closed = true)) : t.Guarded := by
  have hle : s.spawnedChildren ≤ t.spawnedChildren := by omega
  -- a child that lives is the one of the request
  have honly : ∀ j < t.spawnedChildren, (t.slots j).closed = false → j = a.slot := by
    intro j hj hc
    rcases hnew with hsame | ⟨hsucc, hslot, hall⟩
    · rw [hsame] at hj hspawned
      rw [hslots j hj] at hc
      rw [hslots a.slot hspawned] at hopen
      exact hg.unique j hj a.slot hspawned hc hopen
    · by_cases hjs : j < s.spawnedChildren
      · rw [hslots j hjs, hall j hjs] at hc
        cases hc
      · omega
  have hcovered : ∀ r ∈ s.sent, r.accepted = true ∨ (t.slots r.slot).closed = true := by
    intro r hr
    rw [hslots r.slot (hg.sentSpawned r hr)]
    rcases hg.covered r hr with (hacc | hc | ⟨b, hb, -⟩) | ⟨b, hb, -⟩
    · exact .inl hacc
    · exact .inr hc
    · rw [hfree] at hb; cases hb
    · rw [hidle] at hb; cases hb
  have hmem : ∀ {r : Sent T}, r ∈ t.sent → r ∈ s.sent ∨
      r = { id := a.pending.id, slot := a.slot, request := a.request } := fun hr => by
    rw [hsent, List.mem_append, List.mem_singleton] at hr
    exact hr
  refine ⟨fun r hr => ?_, fun r hr hacc => ?_, fun b hb r hr hslot hanswered => ?_, fun j hj hc => ?_,
    fun i hi j hj hci hcj => (honly i hi hci).trans (honly j hj hcj).symm, fun j hj => ?_,
    fun b hb => (by rw [hblocked] at hb; cases hb), fun r hr => ?_, fun b hb => ?_, fun b hb r hr hid => ?_⟩
  · rcases hmem hr with hold | rfl
    · exact .inl ((hcovered r hold).imp id .inl)
    · exact .inr ⟨a, hactive, rfl⟩
  · rcases hmem hr with hold | rfl
    · exact hg.answered r hold hacc
    · cases hacc
  · obtain rfl := Option.some.inj (hactive.symm.trans hb)
    rcases hmem hr with hold | rfl
    · rcases hcovered r hold with hacc | hc
      · rw [hg.answered r hold hacc] at hanswered
        cases hanswered
      · rw [hslot, hopen] at hc
        cases hc
    · rfl
  · exact .inl (hchild.trans (congrArg some (honly j hj hc).symm))
  · obtain rfl := Option.some.inj (hchild.symm.trans hj)
    exact hspawned
  · rcases hmem hr with hold | rfl
    · exact Nat.lt_of_lt_of_le (hg.sentSpawned r hold) hle
    · exact hspawned
  · obtain rfl := Option.some.inj (hactive.symm.trans hb)
    exact ⟨_, hsent ▸ List.mem_append_right _ (List.mem_singleton_self _), rfl, rfl, rfl⟩
  · obtain rfl := Option.some.inj (hactive.symm.trans hb)
    rcases hmem hr with hold | rfl
    · exact absurd hid (hfresh r hold)
    · rfl

/-! ### Answers and the end of a child -/

theorem mem_sent_mark {accepted : Bool} {r : Sent T} (h : r ∈ (s.mark id accepted).sent) : ∃ q ∈ s.sent,
    r.id = q.id ∧ r.slot = q.slot ∧ r.request = q.request ∧ (q.answered = true → r.answered = true) ∧
      (q.accepted = true → r.accepted = true) ∧
      (r.accepted = true → q.accepted = true ∨ r.answered = true) ∧
      (r.id = id → r.answered = true ∧ (accepted = true → r.accepted = true)) := by
  obtain ⟨q, hq, rfl⟩ := List.mem_map.mp h
  refine ⟨q, hq, ?_⟩
  by_cases hid : q.id = id
  · rw [if_pos hid]
    exact ⟨rfl, rfl, rfl, fun _ => rfl, fun h => by simp [h], fun _ => .inr rfl,
      fun _ => ⟨rfl, fun h => by simp [h]⟩⟩
  · rw [if_neg hid]
    exact ⟨rfl, rfl, rfl, fun h => h, fun h => h, .inl, fun h => absurd h hid⟩

theorem exists_sent_mark (accepted : Bool) {q : Sent T} (h : q ∈ s.sent) :
    ∃ r ∈ (s.mark id accepted).sent, r.id = q.id ∧ r.slot = q.slot ∧ r.request = q.request :=
  ⟨_, List.mem_map_of_mem h, by split <;> rfl, by split <;> rfl, by split <;> rfl⟩

theorem Guarded.mark {accepted : Bool} (hg : s.Guarded) : (s.mark id accepted).Guarded where
  covered r hr := by
    obtain ⟨q, hq, hid, hslot, -, -, hacc, -, -⟩ := mem_sent_mark hr
    rcases hg.covered q hq with hcovered | hactive
    · exact .inl (by
        unfold Covered at hcovered ⊢
        rw [hslot]
        exact hcovered.imp_left hacc)
    · exact .inr (hid ▸ hactive)
  answered r hr hacc := by
    obtain ⟨q, hq, -, -, -, hanswered, -, hback, -⟩ := mem_sent_mark hr
    exact (hback hacc).elim (fun h => hanswered (hg.answered q hq h)) fun h => h
  own b hb r hr hslot hanswered := by
    obtain ⟨q, hq, hid, hslot', -, hkeep, -, -, -⟩ := mem_sent_mark hr
    refine hid.trans (hg.own b hb q hq (hslot'.symm.trans hslot) ?_)
    cases hqa : q.answered with
    | false => rfl
    | true => rw [hkeep hqa] at hanswered; cases hanswered
  live := hg.live
  unique := hg.unique
  spawned := hg.spawned
  blockedSpawned := hg.blockedSpawned
  sentSpawned r hr := by
    obtain ⟨q, hq, -, hslot, -⟩ := mem_sent_mark hr
    exact hslot ▸ hg.sentSpawned q hq
  activeSent b hb := by
    obtain ⟨q, hq, hid, hslot, hrequest⟩ := hg.activeSent b hb
    obtain ⟨r, hr, hid', hslot', hrequest'⟩ := exists_sent_mark accepted hq
    exact ⟨r, hr, hid'.trans hid, hslot'.trans hslot, hrequest'.trans hrequest⟩
  activeSlot b hb r hr hid := by
    obtain ⟨q, hq, hid', hslot, -⟩ := mem_sent_mark hr
    exact hslot.trans (hg.activeSlot b hb q hq (hid'.symm.trans hid))

theorem closed_closeSlot (j : Nat) : ((s.closeSlot i).slots j).closed = if j = i then true else (s.slots j).closed := by
  unfold Pool.closeSlot setSlot
  by_cases hj : j = i
  · simp only [hj, Function.update_self, if_true]
  · simp only [Function.update_of_ne hj, if_neg hj]

theorem childSlot_closeSlot : (s.closeSlot i).childSlot = if s.childSlot = some i then none else s.childSlot := rfl

theorem blockedSlot_closeSlot :
    (s.closeSlot i).blockedSlot = if s.blockedSlot = some i then none else s.blockedSlot := rfl

theorem Guarded.closeSlot (hg : s.Guarded) (hopen : (s.slots i).closed = false) : (s.closeSlot i).Guarded where
  covered r hr := by
    refine (hg.covered r hr).imp_left fun hcovered => ?_
    unfold Covered at hcovered ⊢
    simp only [closed_closeSlot, blockedSlot_closeSlot]
    by_cases hri : r.slot = i
    · exact .inr (.inl (if_pos hri))
    · rw [if_neg hri]
      refine hcovered.imp_right fun h => h.imp_right ?_
      rintro ⟨b, hb, hcover⟩
      -- the pool is not blocked for the child that closes, which this request was not sent to
      have hbi : b ≠ i := by
        rintro rfl
        rcases hcover with hc | hc
        · rw [hopen] at hc; cases hc
        · exact hri hc.symm
      refine ⟨b, ?_, ?_⟩
      · rw [hb, if_neg fun h => hbi (Option.some.inj h)]
      · rwa [if_neg hbi]
  answered := hg.answered
  own := hg.own
  live j hj hc := by
    rw [closed_closeSlot] at hc
    split at hc
    · cases hc
    case isFalse hji =>
      simp only [closed_closeSlot, childSlot_closeSlot, blockedSlot_closeSlot]
      rcases hg.live j hj hc with hchild | ⟨b, hb, hbc⟩
      · exact .inl (by rw [hchild, if_neg fun h => hji (Option.some.inj h)])
      · have hbi : b ≠ i := by
          rintro rfl
          rw [hopen] at hbc
          cases hbc
        exact .inr ⟨b, by rw [hb, if_neg fun h => hbi (Option.some.inj h)], by rwa [if_neg hbi]⟩
  unique j hj k hk hcj hck := by
    rw [closed_closeSlot] at hcj hck
    split at hcj
    · cases hcj
    · split at hck
      · cases hck
      · exact hg.unique j hj k hk hcj hck
  spawned j hj := by
    rw [childSlot_closeSlot] at hj
    split at hj
    · cases hj
    · exact hg.spawned j hj
  blockedSpawned j hj := by
    rw [blockedSlot_closeSlot] at hj
    split at hj
    · cases hj
    · exact hg.blockedSpawned j hj
  sentSpawned := hg.sentSpawned
  activeSent := hg.activeSent
  activeSlot := hg.activeSlot

theorem closeSlot_covers {r : Sent T} (h : r.slot = i) : Covered (s.closeSlot i) r :=
  .inr (.inl (by rw [closed_closeSlot, if_pos h]))

theorem SameChildren.becomeIdle : SameChildren s s.becomeIdle := by
  unfold Pool.becomeIdle
  split <;> exact .of_eq rfl rfl rfl rfl rfl rfl

theorem Guarded.handleChildClose {code : Option Nat} {signal : Option JsString} (hg : s.Guarded) :
    (s.handleChildClose i code signal).Guarded := by
  unfold Pool.handleChildClose
  dsimp only
  split
  · exact hg
  case isFalse hopen =>
    have hclosed := hg.closeSlot (i := i) (by simpa using hopen)
    refine Guarded.same ?_ .becomeIdle
    unfold exitActive
    split
    case h_1 active hactive =>
      split
      case isTrue hslot =>
        simp only [Bool.and_eq_true, decide_eq_true_eq] at hslot
        exact hclosed.settleActive fun r hr hid =>
          closeSlot_covers ((hclosed.activeSlot active hactive r hr hid).trans hslot.1)
      case isFalse => exact hclosed
    case h_2 => exact hclosed

end Pool

/-- The call whose mutation the task will settle. -/
def Task.call : Task → Option Nat
  | .terminateActive id .. | .stopActive id .. => some id
  | _ => none

namespace Pool

/-- A termination that counts as confirmed is one whose close was observed, and a task settles the
mutation of the child that it awaits. -/
structure Awaited (s : Pool T V) : Prop where
  tasksSpawned : ∀ task ∈ s.tasks, task.slot < s.spawnedChildren
  known : ∀ task ∈ s.tasks, ∀ b, task.known = some b → b = true ∧ (s.slots task.slot).closed = true
  flights : ∀ i, (s.slots i).flight = some (.done true) → (s.slots i).closed = true
  requests : ∀ task ∈ s.tasks, ∀ id, task.call = some id →
    (∃ r ∈ s.sent, r.id = id) ∧ ∀ r ∈ s.sent, r.id = id → r.slot = task.slot

/-- Requests keep their call and their child, and new requests belong to new calls. -/
structure SentGrows (s s' : Pool T V) : Prop where
  kept : ∀ q ∈ s.sent, ∃ r ∈ s'.sent, r.id = q.id
  old : ∀ r ∈ s'.sent, (∃ q ∈ s.sent, q.id = r.id ∧ q.slot = r.slot) ∨ ∀ q ∈ s.sent, q.id ≠ r.id

theorem SentGrows.of_eq (h : s'.sent = s.sent) : SentGrows s s' :=
  ⟨fun q hq => ⟨q, h ▸ hq, rfl⟩, fun r hr => .inl ⟨r, h ▸ hr, rfl, rfl⟩⟩

theorem Awaited.mono (h : s.Awaited) (htasks : ∀ task ∈ s'.tasks, task ∈ s.tasks)
    (hspawned : s.spawnedChildren ≤ s'.spawnedChildren)
    (hclosed : ∀ i < s.spawnedChildren, (s.slots i).closed = true → (s'.slots i).closed = true)
    (hflights : ∀ i, (s'.slots i).flight = some (.done true) → (s'.slots i).closed = true)
    (hsent : SentGrows s s') : s'.Awaited where
  tasksSpawned task ht := Nat.lt_of_lt_of_le (h.tasksSpawned task (htasks task ht)) hspawned
  known task ht b hb := by
    obtain ⟨htrue, hc⟩ := h.known task (htasks task ht) b hb
    exact ⟨htrue, hclosed task.slot (h.tasksSpawned task (htasks task ht)) hc⟩
  flights := hflights
  requests task ht id hid := by
    obtain ⟨⟨q, hq, hqid⟩, hslots⟩ := h.requests task (htasks task ht) id hid
    obtain ⟨r, hr, hrid⟩ := hsent.kept q hq
    refine ⟨⟨r, hr, hrid.trans hqid⟩, fun r hr hrid => ?_⟩
    rcases hsent.old r hr with ⟨p, hp, hpid, hslot⟩ | hnew
    · exact hslot.symm.trans (hslots p hp (hpid.trans hrid))
    · exact absurd (hqid.trans hrid.symm) (hnew q hq)

/-- A step that starts no termination and closes nothing. -/
theorem Awaited.same (h : s.Awaited) (htasks : s'.tasks = s.tasks) (hslots : s'.slots = s.slots)
    (hspawned : s'.spawnedChildren = s.spawnedChildren) (hsent : SentGrows s s') : s'.Awaited :=
  h.mono (fun _ ht => htasks ▸ ht) (Nat.le_of_eq hspawned.symm) (fun _ _ hc => hslots ▸ hc)
    (hslots ▸ h.flights) hsent

theorem Awaited.setFlight {flight : Flight} (h : s.Awaited) (hflight : flight ≠ .done true) :
    (s.setSlot i { s.slots i with flight := some flight }).Awaited := by
  refine h.mono (fun _ ht => ht) (Nat.le_refl _) (fun j _ hc => ?_) (fun j hj => ?_) (.of_eq rfl)
  · show (Function.update s.slots i _ j).closed = true
    by_cases hji : j = i
    · rw [hji, Function.update_self]; exact hji ▸ hc
    · rw [Function.update_of_ne hji]; exact hc
  · change (Function.update s.slots i _ j).flight = _ at hj
    show (Function.update s.slots i _ j).closed = true
    by_cases hji : j = i
    · rw [hji, Function.update_self] at hj
      exact absurd (Option.some.inj hj) hflight
    · rw [Function.update_of_ne hji] at hj ⊢
      exact h.flights j hj

theorem Awaited.terminateAndConfirm (h : s.Awaited) (i : Nat) : (s.terminateAndConfirm i).2.Awaited := by
  unfold Pool.terminateAndConfirm
  dsimp only
  split
  · exact h
  · split
    · exact h
    · exact h.setFlight (by decide)

theorem terminateAndConfirm_known {b : Bool} (h : (s.terminateAndConfirm i).1 = some b) :
    b = true ∧ ((s.terminateAndConfirm i).2.slots i).closed = true := by
  unfold Pool.terminateAndConfirm at h ⊢
  dsimp only at h ⊢
  split at h
  · case isTrue hc =>
    rw [if_pos hc]
    exact ⟨(Option.some.inj h).symm, hc⟩
  · split at h <;> cases h

/-- A task that awaits the termination of `i` is added. -/
theorem Awaited.await (task : Task) (h : s.Awaited) (hslot : task.slot < s.spawnedChildren)
    (hknown : task.known = (s.terminateAndConfirm task.slot).1)
    (hcall : ∀ id, task.call = some id →
      (∃ r ∈ s.sent, r.id = id) ∧ ∀ r ∈ s.sent, r.id = id → r.slot = task.slot) :
    { (s.terminateAndConfirm task.slot).2 with
      tasks := (s.terminateAndConfirm task.slot).2.tasks ++ [task] }.Awaited := by
  have hquiet := Quiet.terminateAndConfirm (s := s) task.slot
  have hconfirm := h.terminateAndConfirm task.slot
  refine ⟨fun t ht => ?_, fun t ht b hb => ?_, hconfirm.flights, fun t ht id hid => ?_⟩ <;>
    rcases List.mem_append.mp ht with hold | hnew
  · exact hconfirm.tasksSpawned t hold
  · rw [List.mem_singleton.mp hnew]
    exact hquiet.spawnedChildren ▸ hslot
  · exact hconfirm.known t hold b hb
  · obtain rfl := List.mem_singleton.mp hnew
    exact terminateAndConfirm_known (hknown.symm.trans hb)
  · exact hconfirm.requests t hold id hid
  · obtain rfl := List.mem_singleton.mp hnew
    simp only [hquiet.sent]
    exact hcall id hid

theorem Awaited.terminateActive (h : s.Awaited) (hg : s.Guarded) (cause : MutationError) :
    (s.terminateActive cause).Awaited := by
  unfold Pool.terminateActive
  split
  · exact h
  case h_2 active hactive =>
    split
    · exact h
    · have hmarks := Quiet.marks true false hactive
      obtain ⟨r, hr, hid, -⟩ := hg.activeSent active hactive
      refine Awaited.await (.terminateActive active.pending.id active.slot cause _)
        (h.same rfl rfl rfl (.of_eq rfl)) (hg.activeSpawned hactive) rfl fun id hid' => ?_
      obtain rfl := Option.some.inj hid'
      exact ⟨⟨r, hr, hid⟩, hg.activeSlot active hactive⟩

end Pool

end RabiRoute.StorageMutationPool
