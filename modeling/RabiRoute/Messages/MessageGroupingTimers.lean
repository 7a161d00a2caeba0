import RabiRoute.Messages.MessageGroupingSafety

/-!
# No group waits for nothing

A group that is held has a timer, or it is being delivered.  The queue writes its state file before it arms a
timer, so a write that fails there leaves a group that nothing comes back to.
-/

open Collections Transitions

namespace RabiRoute.MessageGrouping

variable {D : Type} {s s' : QueueState D} {key : JsString} {group : PendingMessageGroup D}

/-- A timer will flush the group of this key, or its delivery will settle. -/
def QueueState.Served (s : QueueState D) (key : JsString) : Prop :=
  key ∈ s.timers ∨ ∃ flight ∈ s.flights, flight.key = key

def AllServed (s : QueueState D) : Prop := ∀ key group, s.groups.get? key = some group → s.Served key

/-- What every event keeps that fails no write on which a group depends. -/
structure Attended (s : QueueState D) : Prop where
  keyed : Keyed s.groups
  pending : ∀ key group, s.groups.get? key = some group → group.status = .pending → key ∈ s.timers
  delivering : ∀ key group, s.groups.get? key = some group → group.status = .delivering →
    key ∉ s.timers ∧ ∃ flight ∈ s.flights, flight.key = key
  flights : ∀ flight ∈ s.flights, ∃ group, s.groups.get? flight.key = some group ∧ group.status = .delivering

theorem Attended.served (h : Attended s) : AllServed s := by
  intro key group hgroup
  cases hstatus : group.status with
  | pending => exact .inl (h.pending key group hgroup hstatus)
  | delivering => exact .inr (h.delivering key group hgroup hstatus).2

theorem attended_initial : Attended (initial : QueueState D) where
  keyed k g h := by cases h
  pending k g h := by cases h
  delivering k g h := by cases h
  flights f h := by cases h

def Event.keepsOpen : Event D → Bool
  | .close _ => false
  | _ => true

/-- The queue depends on this event's write only where it goes on to arm a timer or to deliver. -/
def WritesWhereNeeded (lookups : ForwardLookups D) : Event D → QueueState D → Prop
  | .enqueue routeKind record extraValues policy _ _ persists, s =>
    persists = true ∨ ∀ input,
      messageGroupEnqueueInputForForward lookups routeKind record extraValues policy = some input →
        input.identity ∈ s.deliveredIdentities ∨ (s.existing input).isSome = true ∨ input.key ∈ s.timers
  | .fire key persists, s =>
    persists = true ∨ ∀ group, s.groups.get? key = some group → group.status = .delivering
  | .flushNow key persists, s =>
    persists = true ∨ ∀ group, s.groups.get? key = some group → group.status = .delivering
  | .reject _ _ _ persists, _ => persists = true
  | .resolve .., _ => True
  | .close _, _ => False
  | .restart, _ => True

/-! ## Timers and writes -/

theorem mem_arm {k : JsString} : k ∈ (s.arm key).timers ↔ k = key ∨ k ∈ s.timers := by
  unfold QueueState.arm
  dsimp only
  split
  · rename_i hmem
    exact ⟨.inr, fun h => h.elim (fun heq => heq ▸ hmem) id⟩
  · rw [List.mem_append, List.mem_singleton]
    exact or_comm

theorem mem_disarm {k : JsString} : k ∈ (s.disarm key).timers ↔ k ≠ key ∧ k ∈ s.timers := by
  unfold QueueState.disarm
  rw [List.mem_filter, decide_eq_true_eq]
  exact and_comm

theorem attended_persist : Attended s.persist ↔ Attended s :=
  ⟨fun h => ⟨h.keyed, h.pending, h.delivering, h.flights⟩, fun h => ⟨h.keyed, h.pending, h.delivering, h.flights⟩⟩

/-- A group that does not deliver is put in place, and its timer is armed. -/
theorem Attended.arm_pending (hkeyed : Keyed s.groups) (hpending : group.status = .pending)
    (hothers : ∀ k g, k ≠ group.key → s.groups.get? k = some g →
      (g.status = .pending → k ∈ s.timers) ∧
        (g.status = .delivering → k ∉ s.timers ∧ ∃ flight ∈ s.flights, flight.key = k))
    (hflights : ∀ flight ∈ s.flights, flight.key ≠ group.key ∧
      ∃ g, s.groups.get? flight.key = some g ∧ g.status = .delivering) :
    Attended ((s.setGroup group).arm group.key) where
  keyed := hkeyed.set group
  pending k g hg hstatus := by
    rw [mem_arm]
    by_cases hk : k = group.key
    · exact .inl hk
    · exact .inr ((hothers k g hk ((InsertionMap.get?_set_of_ne hk).symm.trans hg)).1 hstatus)
  delivering k g hg hstatus := by
    by_cases hk : k = group.key
    · have hg' : (s.groups.set group.key group).get? k = some g := hg
      rw [hk, InsertionMap.get?_set_self] at hg'
      rw [← Option.some.inj hg', hpending] at hstatus
      cases hstatus
    · obtain ⟨hnot, hflight⟩ :=
        (hothers k g hk ((InsertionMap.get?_set_of_ne hk).symm.trans hg)).2 hstatus
      refine ⟨fun hmem => ?_, hflight⟩
      exact (mem_arm.mp hmem).elim hk hnot
  flights flight hflight := by
    obtain ⟨hk, g, hg, hstatus⟩ := hflights flight hflight
    exact ⟨g, (InsertionMap.get?_set_of_ne hk).trans hg, hstatus⟩

theorem arm_eq_self (h : key ∈ s.timers) : s.arm key = s := by
  unfold QueueState.arm
  rw [if_pos h]

/-- A group is replaced by one of the same key and status. -/
theorem Attended.replace {old : PendingMessageGroup D} (h : Attended s) (hold : s.groups.get? group.key = some old)
    (hstatus : group.status = old.status) : Attended (s.setGroup group) := by
  have hlast : ∀ k g, (s.groups.set group.key group).get? k = some g →
      ∃ g₀, s.groups.get? k = some g₀ ∧ g₀.status = g.status := by
    intro k g hg
    by_cases hk : k = group.key
    · rw [hk, InsertionMap.get?_set_self] at hg
      rw [← Option.some.inj hg]
      exact ⟨old, hk ▸ hold, hstatus.symm⟩
    · exact ⟨g, (InsertionMap.get?_set_of_ne hk).symm.trans hg, rfl⟩
  refine ⟨h.keyed.set group, fun k g hg hp => ?_, fun k g hg hd => ?_, fun flight hflight => ?_⟩
  · obtain ⟨g₀, hg₀, heq⟩ := hlast k g hg
    exact h.pending k g₀ hg₀ (heq.trans hp)
  · obtain ⟨g₀, hg₀, heq⟩ := hlast k g hg
    exact h.delivering k g₀ hg₀ (heq.trans hd)
  · obtain ⟨g, hg, hd⟩ := h.flights flight hflight
    by_cases hk : flight.key = group.key
    · refine ⟨group, by rw [hk]; exact InsertionMap.get?_set_self, ?_⟩
      rw [hk, hold] at hg
      rw [hstatus, Option.some.inj hg]
      exact hd
    · exact ⟨g, (InsertionMap.get?_set_of_ne hk).trans hg, hd⟩

/-- A group that is pending is put in place, and its timer is armed, whatever was there except a delivery. -/
theorem Attended.armed (h : Attended s) (hpending : group.status = .pending) (hfree : ∀ old, s.groups.get? group.key =
    some old → old.status = .pending) : Attended ((s.setGroup group).arm group.key) := by
  apply Attended.arm_pending h.keyed hpending
  · intro k g _ hg
    exact ⟨h.pending k g hg, h.delivering k g hg⟩
  · intro flight hflight
    obtain ⟨g, hg, hd⟩ := h.flights flight hflight
    refine ⟨fun hk => ?_, g, hg, hd⟩
    have hp := hfree g (hk ▸ hg)
    rw [hd] at hp
    cases hp

/-! ## Enqueueing -/

/-- The group that a message joins: one that is held, or a new one. -/
structure Joins (s : QueueState D) (group : PendingMessageGroup D) : Prop where
  held : ∀ old, s.groups.get? group.key = some old → old = group
  new : s.groups.get? group.key = none → group.status = .pending

theorem attended_join {input : EnqueueMessageGroupInput D} {now : Time} {persists : Bool} (h : Attended s) (hjoins :
    Joins s group) (hok : persists = true ∨ (s.groups.get? group.key).isSome = true ∨ group.key ∈ s.timers) : Attended
    (enqueue.join input now persists s group).2 := by
  have hkey : (group.push input now).key = group.key := rfl
  have hstatus : (group.push input now).status = group.status := rfl
  have hreplace : ∀ old, s.groups.get? group.key = some old → Attended (s.setGroup (group.push input now)) := by
    intro old hold
    apply h.replace (hkey ▸ hold)
    rw [hjoins.held old hold]
    exact hstatus
  have harmed : group.status = .pending → Attended ((s.setGroup (group.push input now)).arm group.key) := by
    intro hpending
    apply h.armed (hstatus.trans hpending)
    intro old hold
    rw [hjoins.held old hold]
    exact hpending
  unfold enqueue.join
  cases persists with
  | true =>
    simp only [if_true]
    split
    · rename_i hdelivering
      have hattended : Attended (s.setGroup (group.push input now)) := by
        cases hget : s.groups.get? group.key with
        | none =>
          rw [hjoins.new hget] at hdelivering
          cases hdelivering
        | some old => exact hreplace old hget
      exact ⟨hattended.keyed, hattended.pending, hattended.delivering, hattended.flights⟩
    · rename_i hnot
      have hpending : group.status = .pending := by
        cases hcase : group.status with
        | pending => rfl
        | delivering => exact absurd hcase hnot
      have hattended := harmed hpending
      exact ⟨hattended.keyed, hattended.pending, hattended.delivering, hattended.flights⟩
  | false =>
    simp only [Bool.false_eq_true, if_false]
    cases hget : s.groups.get? group.key with
    | some old => exact hreplace old hget
    | none =>
      have htimer : group.key ∈ s.timers := by simpa [hget] using hok
      have hattended := harmed (hjoins.new hget)
      rwa [arm_eq_self (s := s.setGroup (group.push input now)) htimer] at hattended

/-- A new group whose write fails has no timer. -/
theorem served_join {input : EnqueueMessageGroupInput D} {now : Time} {persists : Bool} (h : Attended s)
    (hserved : AllServed (enqueue.join input now persists s group).2) :
    persists = true ∨ (s.groups.get? group.key).isSome = true ∨ group.key ∈ s.timers := by
  cases persists with
  | true => exact .inl rfl
  | false =>
    right
    cases hget : s.groups.get? group.key with
    | some old => exact .inl rfl
    | none =>
      right
      rcases hserved group.key (group.push input now) InsertionMap.get?_set_self with
        htimer | ⟨flight, hflight, hkey⟩
      · exact htimer
      · obtain ⟨g, hg, -⟩ := h.flights flight hflight
        rw [hkey, hget] at hg
        cases hg

theorem joins_existing {input : EnqueueMessageGroupInput D} (h : Attended s)
    (hexisting : s.existing input = some group) : s.groups.get? group.key = some group ∧ Joins s group := by
  have hget := h.keyed.get?.mp (existing_mem hexisting)
  refine ⟨hget, fun old hold => Option.some.inj (hold.symm.trans hget), fun hnone => ?_⟩
  rw [hget] at hnone
  cases hnone

theorem joins_new {input : EnqueueMessageGroupInput D} (groupId : JsString) (now : Time) (hexisting : s.existing input =
    none) : s.groups.get? input.key = none ∧ Joins s (newGroup input groupId now) := by
  unfold QueueState.existing at hexisting
  have hget := (Option.or_eq_none_iff.mp hexisting).1
  refine ⟨hget, fun old hold => ?_, fun _ => rfl⟩
  rw [show (newGroup input groupId now).key = input.key from rfl, hget] at hold
  cases hold

theorem attended_enqueue {input : EnqueueMessageGroupInput D} {now : Time} {uuid : JsString} {persists : Bool}
    (h : Attended s) (hok : persists = true ∨ input.identity ∈ s.deliveredIdentities ∨
      (s.existing input).isSome = true ∨ input.key ∈ s.timers) :
    Attended (enqueue input now uuid persists s).2 := by
  unfold enqueue
  split
  · exact h
  · rename_i hundelivered
    split
    · rename_i group hexisting
      obtain ⟨hget, hjoins⟩ := joins_existing h hexisting
      split
      · exact h
      · exact attended_join h hjoins (.inr (.inl (by rw [hget]; rfl)))
    · rename_i hexisting
      obtain ⟨-, hjoins⟩ := joins_new (js "message-group-" ++ uuid) now hexisting
      apply attended_join h hjoins
      rw [hexisting] at hok
      rcases hok with hpersists | hdelivered | hsome | htimer
      · exact .inl hpersists
      · exact absurd hdelivered hundelivered
      · cases hsome
      · exact .inr (.inr htimer)

theorem served_enqueue {input : EnqueueMessageGroupInput D} {now : Time} {uuid : JsString} {persists : Bool}
    (h : Attended s) (hserved : AllServed (enqueue input now uuid persists s).2) :
    persists = true ∨ input.identity ∈ s.deliveredIdentities ∨ (s.existing input).isSome = true ∨
      input.key ∈ s.timers := by
  unfold enqueue at hserved
  split at hserved
  · rename_i hdelivered
    exact .inr (.inl hdelivered)
  · cases hexisting : s.existing input with
    | some group => exact .inr (.inr (.inl rfl))
    | none =>
      obtain ⟨hget, -⟩ := joins_new (js "message-group-" ++ uuid) now hexisting
      rw [hexisting] at hserved
      rcases served_join h hserved with hpersists | hsome | htimer
      · exact .inl hpersists
      · rw [show (newGroup input (js "message-group-" ++ uuid) now).key = input.key from rfl, hget] at hsome
        cases hsome
      · exact .inr (.inr (.inr htimer))

/-! ## Flushing -/

/-- The timer of a group is taken away, and the group is given to `deliver`. -/
theorem attended_started {group' : PendingMessageGroup D} {identities : List Identity} (h : Attended s)
    (hkey : group'.key = key) (hstatus : group'.status = .delivering) :
    Attended { ((s.disarm key).setGroup group').persist with flights := s.flights ++ [⟨key, identities⟩] } := by
  have hset : ∀ k g, (s.groups.set group'.key group').get? k = some g → k ≠ key → s.groups.get? k = some g :=
    fun k g hg hk => (InsertionMap.get?_set_of_ne (hkey.symm ▸ hk)).symm.trans hg
  have hself : (s.groups.set group'.key group').get? key = some group' := by
    rw [← hkey]
    exact InsertionMap.get?_set_self
  refine ⟨h.keyed.set group', fun k g hg hp => ?_, fun k g hg hd => ?_, fun flight hflight => ?_⟩
  · by_cases hk : k = key
    · rw [hk] at hg
      rw [← Option.some.inj (hself.symm.trans hg), hstatus] at hp
      cases hp
    · exact mem_disarm.mpr ⟨hk, h.pending k g (hset k g hg hk) hp⟩
  · by_cases hk : k = key
    · refine ⟨fun hmem => (mem_disarm.mp hmem).1 hk, ⟨key, identities⟩, ?_, hk.symm⟩
      exact List.mem_append_right _ List.mem_cons_self
    · obtain ⟨hnot, flight, hflight, heq⟩ := h.delivering k g (hset k g hg hk) hd
      exact ⟨fun hmem => hnot (mem_disarm.mp hmem).2, flight, List.mem_append_left _ hflight, heq⟩
  · rcases List.mem_append.mp hflight with hold | hnew
    · obtain ⟨g, hg, hd⟩ := h.flights flight hold
      by_cases hk : flight.key = key
      · exact ⟨group', hk ▸ hself, hstatus⟩
      · exact ⟨g, (InsertionMap.get?_set_of_ne (hkey.symm ▸ hk)).trans hg, hd⟩
    · cases List.mem_singleton.mp hnew
      exact ⟨group', hself, hstatus⟩

theorem attended_flushNow {persists : Bool} (h : Attended s) (hok : persists = true ∨ ∀ group, s.groups.get? key = some
    group → group.status = .delivering) : Attended (flushNow key persists s).2 := by
  unfold flushNow
  split
  · exact h
  · rename_i group hgroup
    split
    · exact h
    · rename_i hnot
      have hpersists : persists = true := hok.resolve_right fun hall => hnot (hall group hgroup)
      rw [hpersists]
      exact attended_started h (h.keyed key group hgroup) rfl

theorem flushNow_failed (hgroup : s.groups.get? key = some group) (hnot : group.status ≠ .delivering) :
    ∃ group', group'.key = group.key ∧ (flushNow key false s).2 = (s.disarm key).setGroup group' := by
  unfold flushNow
  rw [hgroup]
  refine ⟨{ group with status := .delivering, attempts := group.attempts + 1, lastError := none }, rfl, ?_⟩
  dsimp only
  rw [if_neg hnot]
  rfl

/-- The group that is flushed while its write fails is left alone. -/
theorem served_flushNow {persists : Bool} (h : Attended s) (hserved : AllServed (flushNow key persists s).2) :
    persists = true ∨ ∀ group, s.groups.get? key = some group → group.status = .delivering := by
  cases persists with
  | true => exact .inl rfl
  | false =>
    right
    intro group hgroup
    by_contra hnot
    obtain ⟨group', hkey, heq⟩ := flushNow_failed hgroup hnot
    rw [heq] at hserved
    rw [h.keyed key group hgroup] at hkey
    have hself : (s.groups.set group'.key group').get? key = some group' := by
      rw [hkey]
      exact InsertionMap.get?_set_self
    rcases hserved key group' hself with htimer | ⟨flight, hflight, heq⟩
    · exact (mem_disarm.mp htimer).1 rfl
    · obtain ⟨g, hg, hd⟩ := h.flights flight hflight
      rw [heq, hgroup] at hg
      rw [← Option.some.inj hg] at hd
      exact hnot hd

theorem disarm_disarm (s : QueueState D) (key : JsString) : (s.disarm key).disarm key = s.disarm key := by
  unfold QueueState.disarm
  dsimp only
  rw [List.filter_filter]
  simp only [Bool.and_self]

/-- The timer has gone by the time that it flushes the group. -/
theorem flushNow_disarm {persists : Bool} (hgroup : s.groups.get? key = some group) (hnot : group.status ≠ .delivering) :
    flushNow key persists (s.disarm key) = flushNow key persists s := by
  have hgroup' : (s.disarm key).groups.get? key = some group := hgroup
  unfold flushNow
  rw [hgroup, hgroup']
  dsimp only
  rw [if_neg hnot, if_neg hnot, disarm_disarm]
  cases persists
  · rfl
  · rfl

/-- A timer fires: for a group that is pending, or for one that has gone. -/
theorem fire_cases (persists : Bool) (h : Attended s) (htimer : key ∈ s.timers) :
    (s.groups.get? key = none ∧ (flushNow key persists (s.disarm key)).2 = s.disarm key) ∨
      flushNow key persists (s.disarm key) = flushNow key persists s := by
  cases hgroup : s.groups.get? key with
  | none =>
    left
    have hgroup' : (s.disarm key).groups.get? key = none := hgroup
    unfold flushNow
    rw [hgroup']
    exact ⟨rfl, rfl⟩
  | some group =>
    right
    apply flushNow_disarm hgroup
    intro hdelivering
    exact (h.delivering key group hgroup hdelivering).1 htimer

/-- The timers of the groups that are held matter, and no others. -/
theorem Attended.timers {s' : QueueState D} (h : Attended s) (hgroups : s'.groups = s.groups) (hflights : s'.flights =
    s.flights) (htimers : ∀ k group, s.groups.get? k = some group → (k ∈ s'.timers ↔ k ∈ s.timers)) : Attended s' := by
  refine ⟨hgroups ▸ h.keyed, fun k g hg hp => ?_, fun k g hg hd => ?_, fun flight hflight => ?_⟩
  · rw [hgroups] at hg
    exact (htimers k g hg).mpr (h.pending k g hg hp)
  · rw [hgroups] at hg
    obtain ⟨hnot, hflight⟩ := h.delivering k g hg hd
    exact ⟨fun hmem => hnot ((htimers k g hg).mp hmem), hflights ▸ hflight⟩
  · rw [hflights] at hflight
    rw [hgroups]
    exact h.flights flight hflight

theorem attended_disarm (h : Attended s) (hgroup : s.groups.get? key = none) : Attended (s.disarm key) := by
  refine h.timers rfl rfl fun k g hg => ?_
  rw [mem_disarm]
  refine ⟨And.right, fun hmem => ⟨fun hk => ?_, hmem⟩⟩
  rw [hk, hgroup] at hg
  cases hg

theorem attended_arm (h : Attended s) (hgroup : s.groups.get? key = none) : Attended (s.arm key) := by
  refine h.timers rfl rfl fun k g hg => ?_
  rw [mem_arm]
  refine ⟨fun hor => hor.elim (fun hk => ?_) id, .inr⟩
  rw [hk, hgroup] at hg
  cases hg

/-! ## The end of a delivery -/

theorem retain_eq (error : JsString) (now : Time) (persists : Bool) (hgroup : s.groups.get? key = some group) :
    ∃ group', group'.key = group.key ∧ group'.status = .pending ∧
      (retain key error now persists s).2 =
        if persists then (s.setGroup group').persist.arm key else s.setGroup group' := by
  unfold retain
  rw [hgroup]
  refine ⟨{ group with
    status := .pending
    lastError := some error
    deadlineAt := now + retrySeconds group.attempts * 1000
    maxDeadlineAt := max group.maxDeadlineAt (now + retrySeconds group.attempts * 1000) }, rfl, rfl, ?_⟩
  cases persists
  · rfl
  · rfl

/-- What a delivery that has ended leaves, where its group is pending again, or has gone. -/
theorem attended_retain {error : JsString} {now : Time} {persists : Bool} (h : Attended s) (hpending : ∀ group,
    s.groups.get? key = some group → group.status = .pending) : Attended (retain key error now persists s).2 := by
  cases hgroup : s.groups.get? key with
  | none =>
    unfold retain
    rw [hgroup]
    dsimp only
    split
    · exact attended_arm (attended_persist.mpr h) hgroup
    · exact h
  | some group =>
    obtain ⟨group', hkey, hstatus, heq⟩ := retain_eq error now persists hgroup
    rw [heq]
    have hold : s.groups.get? group'.key = some group := by rw [hkey, h.keyed key group hgroup, hgroup]
    split
    · rw [← h.keyed key group hgroup, ← hkey]
      have harmed : Attended ((s.setGroup group').arm group'.key) := by
        apply h.armed hstatus
        intro old hget
        rw [hold] at hget
        rw [← Option.some.inj hget]
        exact hpending group hgroup
      exact ⟨harmed.keyed, harmed.pending, harmed.delivering, harmed.flights⟩
    · apply h.replace hold
      rw [hstatus, hpending group hgroup]

/-- Where a delivery has landed, its group is the only one that nothing comes back to. -/
theorem attended_landed (group' : PendingMessageGroup D) (h : Attended s) (hkey : group'.key = key)
    (hstatus : group'.status = .pending) : Attended (((s.land key).setGroup group').arm key) := by
  rw [← hkey]
  refine Attended.arm_pending (s := s.land group'.key) h.keyed hstatus (fun k g hk hg => ?_) fun flight hflight => ?_
  · refine ⟨h.pending k g hg, fun hd => ?_⟩
    obtain ⟨hnot, flight, hflight, heq⟩ := h.delivering k g hg hd
    refine ⟨hnot, flight, List.mem_filter.mpr ⟨hflight, ?_⟩, heq⟩
    rw [decide_eq_true_eq, heq]
    exact hk
  · obtain ⟨hmem, hne⟩ := List.mem_filter.mp hflight
    exact ⟨of_decide_eq_true hne, h.flights flight hmem⟩

theorem attended_reject {flight : Flight} {error : JsString} {now : Time} {persists : Bool} (h : Attended s)
    (hflight : flight ∈ s.flights) :
    (persists = true → Attended (retain flight.key error now persists (s.land flight.key)).2) ∧
      (AllServed (retain flight.key error now persists (s.land flight.key)).2 → persists = true) := by
  obtain ⟨group, hgroup, hdelivering⟩ := h.flights flight hflight
  have hlanded : (s.land flight.key).groups.get? flight.key = some group := hgroup
  obtain ⟨group', hkey, hstatus, heq⟩ := retain_eq error now persists hlanded
  rw [heq]
  have hkey' : group'.key = flight.key := hkey.trans (h.keyed flight.key group hgroup)
  cases persists with
  | true =>
    have hattended := attended_landed group' h hkey' hstatus
    exact ⟨fun _ => ⟨hattended.keyed, hattended.pending, hattended.delivering, hattended.flights⟩, fun _ => rfl⟩
  | false =>
    refine ⟨fun hfalse => (by cases hfalse), fun hserved => ?_⟩
    have hself : (s.groups.set group'.key group').get? flight.key = some group' := by
      rw [← hkey']
      exact InsertionMap.get?_set_self
    rcases hserved flight.key group' hself with htimer | ⟨other, hother, heq⟩
    · exact absurd htimer (h.delivering flight.key group hgroup hdelivering).1
    · exact absurd heq (of_decide_eq_true (List.mem_filter.mp hother).2)

/-- A delivery has resolved: its group has gone, or it is armed before anything is written. -/
theorem attended_finish {flight : Flight} (h : Attended s) (hgroup : s.groups.get? flight.key = some group) :
    Attended (finish flight group (s.land flight.key)) ∧
      ∀ g, (finish flight group (s.land flight.key)).groups.get? flight.key = some g → g.status = .pending := by
  unfold finish
  dsimp only
  split
  · refine ⟨⟨h.keyed.erase flight.key, fun k g hg hp => ?_, fun k g hg hd => ?_, fun other hother => ?_⟩, ?_⟩
    · obtain ⟨-, hmem⟩ := InsertionMap.mem_erase.mp (InsertionMap.get?_eq_some.mp hg)
      exact h.pending k g (InsertionMap.get?_eq_some.mpr hmem) hp
    · obtain ⟨hk, hmem⟩ := InsertionMap.mem_erase.mp (InsertionMap.get?_eq_some.mp hg)
      obtain ⟨hnot, other, hother, heq⟩ := h.delivering k g (InsertionMap.get?_eq_some.mpr hmem) hd
      refine ⟨hnot, other, List.mem_filter.mpr ⟨hother, ?_⟩, heq⟩
      rw [decide_eq_true_eq, heq]
      exact hk
    · obtain ⟨hmem, hne⟩ := List.mem_filter.mp hother
      obtain ⟨g, hg, hd⟩ := h.flights other hmem
      refine ⟨g, ?_, hd⟩
      rw [InsertionMap.get?_erase, if_neg (of_decide_eq_true hne)]
      exact hg
    · intro g hg
      rw [InsertionMap.get?_erase, if_pos rfl] at hg
      cases hg
  · rename_i first rest hitems
    have hkey := h.keyed flight.key group hgroup
    have hattended := attended_landed { group with
      items := group.items.filter fun item => decide (item.identity ∉ flight.identities)
      status := .pending
      attempts := 0
      lastError := none
      createdAt := first.receivedAt } h hkey rfl
    refine ⟨⟨hattended.keyed, hattended.pending, hattended.delivering, hattended.flights⟩, fun g hg => ?_⟩
    rw [← hkey] at hg
    have hself : (s.groups.set group.key { group with
        items := group.items.filter fun item => decide (item.identity ∉ flight.identities)
        status := .pending
        attempts := 0
        lastError := none
        createdAt := first.receivedAt }).get? group.key = some g := hg
    rw [InsertionMap.get?_set_self] at hself
    rw [← Option.some.inj hself]

theorem attended_resolve {flight : Flight} {now : Time} {persists persists' : Bool} (h : Attended s) :
    Attended (resolve flight now persists persists' s).2 := by
  unfold resolve
  split
  · exact h
  · rename_i group hgroup
    obtain ⟨hattended, hpending⟩ := attended_finish h hgroup
    dsimp only
    split
    · exact attended_persist.mpr hattended
    · exact attended_retain hattended hpending

/-! ## A new process -/

theorem attended_restart (s : QueueState D) : Attended (restart s) := by
  have hgroups : ∀ (groups : List (PendingMessageGroup D)) (m : InsertionMap JsString (PendingMessageGroup D)),
      (∀ g ∈ groups, g.status = .pending) → Keyed m → (∀ k g, m.get? k = some g → g.status = .pending) →
      Keyed (groups.foldl loadGroup m) ∧
        ∀ k g, (groups.foldl loadGroup m).get? k = some g → g.status = .pending := by
    intro groups
    induction groups with
    | nil => exact fun m _ hkeyed hall => ⟨hkeyed, hall⟩
    | cons group groups ih =>
      intro m hstatus hkeyed hall
      apply ih (loadGroup m group) (fun g hg => hstatus g (List.mem_cons_of_mem _ hg)) (hkeyed.set group)
      intro k g hg
      have hg' : (m.set group.key group).get? k = some g := hg
      rw [InsertionMap.get?_set] at hg'
      split at hg'
      · rw [← Option.some.inj hg']
        exact hstatus group List.mem_cons_self
      · exact hall k g hg'
  have hread : ∀ g ∈ ((s.disk.map readState).getD ⟨[], []⟩).pending, g.status = .pending := by
    cases s.disk with
    | none => exact fun g hg => by cases hg
    | some file =>
      intro g hg
      obtain ⟨g₀, -, hnormal⟩ := List.mem_filterMap.mp hg
      obtain ⟨-, heq⟩ := Option.ite_none_left_eq_some.mp hnormal
      rw [← Option.some.inj heq]
  obtain ⟨hkeyed, hall⟩ := hgroups _ .empty hread (fun k g hg => by cases hg) (fun k g hg => by cases hg)
  refine ⟨hkeyed, fun k g hg _ => InsertionMap.mem_keys.mpr ⟨g, hg⟩, fun k g hg hd => ?_, fun f hf => by cases hf⟩
  rw [hall k g hg] at hd
  cases hd

/-! ## Runs -/

/-- An event keeps every group served exactly if it fails no write that the queue depends on. -/
theorem attended_step {lookups : ForwardLookups D} {e : Event D} {a : Answer} (h : Attended s)
    (hopen : e.keepsOpen = true) (hstep : step lookups e s = some (a, s')) :
    (WritesWhereNeeded lookups e s → Attended s') ∧ (AllServed s' → WritesWhereNeeded lookups e s) := by
  cases e with
  | enqueue routeKind record extraValues policy now uuid persists =>
    unfold WritesWhereNeeded
    simp only [step] at hstep
    cases hinput : messageGroupEnqueueInputForForward lookups routeKind record extraValues policy with
    | none =>
      rw [hinput] at hstep
      cases hstep
      refine ⟨fun _ => h, fun _ => .inr fun input hsome => ?_⟩
      rw [hinput] at hsome
      cases hsome
    | some input =>
      rw [hinput] at hstep
      have hs' : (enqueue input now uuid persists s).2 = s' := congrArg Prod.snd (Option.some.inj hstep)
      rw [← hs']
      refine ⟨fun hok => attended_enqueue h (hok.imp_right fun hall => hall input hinput), fun hserved => ?_⟩
      apply (served_enqueue h hserved).imp_right
      intro hor input' hinput'
      rw [hinput] at hinput'
      rw [← Option.some.inj hinput']
      exact hor
  | fire key persists =>
    obtain ⟨htimer, heq⟩ := Option.ite_none_right_eq_some.mp hstep
    have hs' : (flushNow key persists (s.disarm key)).2 = s' := congrArg Prod.snd (Option.some.inj heq)
    rw [← hs']
    rcases fire_cases persists h htimer with ⟨hnone, hleft⟩ | hsame
    · rw [hleft]
      refine ⟨fun _ => attended_disarm h hnone, fun _ => .inr fun group hgroup => ?_⟩
      rw [hnone] at hgroup
      cases hgroup
    · rw [hsame]
      exact ⟨attended_flushNow h, served_flushNow h⟩
  | flushNow key persists =>
    have hs' : (flushNow key persists s).2 = s' := congrArg Prod.snd (Option.some.inj hstep)
    rw [← hs']
    exact ⟨attended_flushNow h, served_flushNow h⟩
  | resolve key now persists persists' =>
    obtain ⟨flight, -, heq⟩ := Option.map_eq_some_iff.mp hstep
    have hs' : (resolve flight now persists persists' s).2 = s' := congrArg Prod.snd heq
    rw [← hs']
    exact ⟨fun _ => attended_resolve h, fun _ => trivial⟩
  | reject key error now persists =>
    obtain ⟨flight, hflight, heq⟩ := Option.map_eq_some_iff.mp hstep
    have hs' : (retain flight.key error now persists (s.land flight.key)).2 = s' := congrArg Prod.snd heq
    rw [← hs']
    exact attended_reject h (List.mem_of_find?_eq_some hflight)
  | close persists => cases hopen
  | restart =>
    have hs' : restart s = s' := congrArg Prod.snd (Option.some.inj hstep)
    rw [← hs']
    exact ⟨fun _ => attended_restart s, fun _ => trivial⟩

theorem WritesWhereNeeded.keepsOpen {lookups : ForwardLookups D} {e : Event D} (h : WritesWhereNeeded lookups e s) :
    e.keepsOpen = true := by
  cases e with
  | close persists => exact absurd h id
  | _ => rfl

/-- Every group is served in a run whose needed writes succeed, and the first one that fails strands a group. -/
theorem groups_served (lookups : ForwardLookups D) (s : QueueState D)
    (h : (system lookups).ReachUnder (WritesWhereNeeded lookups) initial s) :
    AllServed s ∧ ∀ e a s', e.keepsOpen = true → step lookups e s = some (a, s') →
      (AllServed s' ↔ WritesWhereNeeded lookups e s) := by
  have hattended : Attended s :=
    h.invariant attended_initial fun e s a s' hinv hok hstep ↦ (attended_step hinv hok.keepsOpen hstep).1 hok
  refine ⟨hattended.served, fun e a s' hopen hstep ↦ ?_⟩
  obtain ⟨hkeeps, hneeds⟩ := attended_step hattended hopen hstep
  exact ⟨hneeds, fun hok ↦ (hkeeps hok).served⟩

/-- A message is accepted, its timer fires, and the state file cannot be written: the group is marked as being
delivered, but nothing delivers it. -/
theorem group_stranded : ¬ ∀ s, (system chatLookups).ReachUnder (fun e _ ↦ e.keepsOpen = true) initial s →
    AllServed s := by
  intro hall
  have hrun : ((system chatLookups).runUnder (fun e _ ↦ e.keepsOpen = true) initial
      [chatMessage "m" none, .fire (chatKey "none") false]).any
      (fun s ↦ decide (s.timers = []) && s.flights.isEmpty && (s.groups.get? (chatKey "none")).isSome) = true := by
    decide +kernel
  obtain ⟨s, hs, hend⟩ := (Option.any_eq_true _ _).mp hrun
  obtain ⟨hempty, hsome⟩ := (Bool.and_eq_true _ _).mp hend
  obtain ⟨htimers, hflights⟩ := (Bool.and_eq_true _ _).mp hempty
  obtain ⟨group, hgroup⟩ := Option.isSome_iff_exists.mp hsome
  rcases hall s (System.runUnder_reach hs) (chatKey "none") group hgroup with htimer | ⟨flight, hflight, -⟩
  · rw [of_decide_eq_true htimers] at htimer
    cases htimer
  · rw [List.isEmpty_iff.mp hflights] at hflight
    cases hflight

/-- The same message with a disk that can be written: its group is being delivered. -/
theorem groups_served_chat : ∃ s, (system chatLookups).ReachUnder (WritesWhereNeeded chatLookups) initial s ∧
    s.flights.length = 1 ∧ AllServed s := by
  have hfirst : ∃ a s, step chatLookups (chatMessage "m" none) initial = some (a, s) ∧
      (step chatLookups (.fire (chatKey "none") true) s).any (fun r ↦ decide (r.2.flights.length = 1)) = true := by
    refine ⟨_, _, rfl, ?_⟩
    decide +kernel
  obtain ⟨a, s, hstep, hany⟩ := hfirst
  obtain ⟨⟨a', s'⟩, hfire, hlength⟩ := (Option.any_eq_true _ _).mp hany
  have hmessage : WritesWhereNeeded chatLookups (chatMessage "m" none) initial := Or.inl rfl
  have htimer : WritesWhereNeeded chatLookups (.fire (chatKey "none") true) s := Or.inl rfl
  have hreach : (system chatLookups).ReachUnder (WritesWhereNeeded chatLookups) initial s' :=
    .next _ a' (.next _ a .refl hmessage hstep) htimer hfire
  exact ⟨s', hreach, of_decide_eq_true hlength, (groups_served chatLookups s' hreach).1⟩

end RabiRoute.MessageGrouping
