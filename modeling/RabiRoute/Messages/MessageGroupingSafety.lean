import RabiRoute.Messages.MessageGroupingInvariant

/-!
# A grouped message is delivered once

Over all runs in which an enqueued message joins the group that holds it, if there is one.  The
queue compares a new message with one group only, so a message that has joined the group of another
key is accepted again while that group is being delivered.
-/

open Collections Transitions

namespace RabiRoute.MessageGrouping

variable {D : Type}

/-- What the queue owes to every accepted message, in one state. -/
structure DeliveredOnce (lookups : ForwardLookups D) (s : QueueState D) : Prop where
  /-- Until a delivery that contains it resolves, an accepted identity is in exactly one group. -/
  held : ∀ i, s.owed i = true →
    ∃! key, ∃ group, s.groups.get? key = some group ∧ group.holds i = true
  /-- No call of `deliver` contains an identity that is among the last that were delivered. -/
  started : ∀ e identities s', step lookups e s = some (.started identities, s') →
    ∀ i ∈ identities, i ∉ takeLast maxMessageGroupDeliveredIdentities s.resolved
  /-- No identity is accepted while a group holds it or while it is among the last delivered. -/
  accepted : ∀ e i groupId itemCount s',
    step lookups e s = some (.accepted i groupId itemCount, s') → JoinsHolder lookups e s →
      s.owed i = false ∧ (∀ group ∈ s.groups.values, group.holds i = false) ∧
        i ∉ takeLast maxMessageGroupDeliveredIdentities s.resolved

theorem started_flushNow {s s' : QueueState D} {key : JsString} {persists : Bool}
    {identities : List Identity} (h : flushNow key persists s = (.started identities, s')) :
    ∃ group ∈ s.groups.values, ∀ i ∈ identities, group.holds i = true := by
  unfold flushNow at h
  split at h
  case h_1 => cases (Prod.mk.inj h).1
  case h_2 group hgroup =>
    split at h
    case isTrue => cases (Prod.mk.inj h).1
    case isFalse =>
      dsimp only at h
      split at h
      case isFalse => cases (Prod.mk.inj h).1
      case isTrue =>
        obtain rfl := Answer.started.inj (Prod.mk.inj h).1
        exact ⟨group, InsertionMap.mem_values.mpr ⟨key, hgroup⟩, fun i hi => mem_identities.mp hi⟩

/-- Only a flush calls `deliver`, and only an enqueue accepts. -/
def Answer.Quiet : Answer → Prop
  | .started _ | .accepted _ _ _ => False
  | _ => True

/-- An answer is that of an enqueue or of a flush, or it neither starts nor accepts. -/
theorem answer_step {lookups : ForwardLookups D} {e : Event D} {s s' : QueueState D} {answer : Answer}
    (h : step lookups e s = some (answer, s')) : answer.Quiet ∨
      (∃ routeKind record extraValues policy now uuid persists input,
        e = .enqueue routeKind record extraValues policy now uuid persists ∧
        messageGroupEnqueueInputForForward lookups routeKind record extraValues policy = some input ∧
        enqueue input now uuid persists s = (answer, s')) ∨
      ∃ key persists s₁, s₁.groups = s.groups ∧ flushNow key persists s₁ = (answer, s') := by
  have hretain (key : JsString) (error : JsString) (now : Time) (persists : Bool) (s₁ : QueueState D)
      (heq : retain key error now persists s₁ = (answer, s')) : answer.Quiet := by
    unfold retain at heq
    dsimp only at heq
    split at heq <;> exact (Prod.mk.inj heq).1 ▸ trivial
  cases e with
  | enqueue routeKind record extraValues policy now uuid persists =>
    simp only [step] at h
    split at h
    case h_1 => exact .inl ((Prod.mk.inj (Option.some.inj h)).1 ▸ trivial)
    case h_2 input hinput => exact .inr (.inl ⟨_, _, _, _, _, _, _, input, rfl, hinput, Option.some.inj h⟩)
  | fire key persists =>
    simp only [step] at h
    split at h
    case isFalse => cases h
    case isTrue => exact .inr (.inr ⟨key, persists, s.disarm key, rfl, Option.some.inj h⟩)
  | flushNow key persists => exact .inr (.inr ⟨key, persists, s, rfl, Option.some.inj h⟩)
  | resolve key now persists persists' =>
    obtain ⟨flight, -, hresult⟩ := Option.map_eq_some_iff.mp h
    unfold resolve at hresult
    split at hresult
    case h_1 => exact .inl ((Prod.mk.inj hresult).1 ▸ trivial)
    case h_2 =>
      dsimp only at hresult
      split at hresult
      case isTrue => exact .inl ((Prod.mk.inj hresult).1 ▸ trivial)
      case isFalse => exact .inl (hretain _ _ _ _ _ hresult)
  | reject key error now persists =>
    obtain ⟨flight, -, hresult⟩ := Option.map_eq_some_iff.mp h
    exact .inl (hretain _ _ _ _ _ hresult)
  | close persists => cases persists <;> exact .inl ((Prod.mk.inj (Option.some.inj h)).1 ▸ trivial)
  | restart => exact .inl ((Prod.mk.inj (Option.some.inj h)).1 ▸ trivial)

theorem started_step {lookups : ForwardLookups D} {e : Event D} {s s' : QueueState D}
    {identities : List Identity} (h : step lookups e s = some (.started identities, s')) :
    ∃ group ∈ s.groups.values, ∀ i ∈ identities, group.holds i = true := by
  rcases answer_step h with hquiet | ⟨_, _, _, _, _, _, _, _, -, -, henqueue⟩ | ⟨key, persists, s₁, hgroups, hflush⟩
  · cases hquiet
  · unfold enqueue enqueue.join at henqueue
    dsimp only at henqueue
    repeat' split at henqueue
    all_goals cases (Prod.mk.inj henqueue).1
  · exact hgroups ▸ started_flushNow hflush

theorem accepted_enqueue {s s' : QueueState D} {input : EnqueueMessageGroupInput D} {now : Time}
    {uuid : JsString} {persists : Bool} {i : Identity} {groupId : JsString} {itemCount : Nat}
    (h : enqueue input now uuid persists s = (.accepted i groupId itemCount, s')) :
    i = input.identity ∧ i ∉ s.deliveredIdentities ∧
      ∀ group, s.existing input = some group → group.holds i = false := by
  have hjoin : ∀ group, enqueue.join input now persists s group = (.accepted i groupId itemCount, s') →
      i = input.identity := by
    intro group heq
    unfold enqueue.join at heq
    dsimp only at heq
    split at heq
    · exact (Answer.accepted.inj (Prod.mk.inj heq).1).1.symm
    · cases (Prod.mk.inj heq).1
  unfold enqueue at h
  split at h
  case isTrue => cases (Prod.mk.inj h).1
  case isFalse hundelivered =>
    split at h
    case h_1 group hexisting =>
      split at h
      case isTrue => cases (Prod.mk.inj h).1
      case isFalse hnot =>
        obtain rfl := hjoin group h
        refine ⟨rfl, hundelivered, fun g hg => ?_⟩
        obtain rfl := Option.some.inj (hexisting.symm.trans hg)
        simpa using hnot
    case h_2 hnone =>
      obtain rfl := hjoin _ h
      exact ⟨rfl, hundelivered, fun g hg => by simp [hnone] at hg⟩

theorem accepted_step {lookups : ForwardLookups D} {e : Event D} {s s' : QueueState D} {i : Identity}
    {groupId : JsString} {itemCount : Nat}
    (h : step lookups e s = some (.accepted i groupId itemCount, s')) :
    ∃ routeKind record extraValues policy now uuid persists input,
      e = .enqueue routeKind record extraValues policy now uuid persists ∧
      messageGroupEnqueueInputForForward lookups routeKind record extraValues policy = some input ∧
      enqueue input now uuid persists s = (.accepted i groupId itemCount, s') := by
  rcases answer_step h with hquiet | henqueue | ⟨key, persists, s₁, -, hflush⟩
  · cases hquiet
  · exact henqueue
  · unfold flushNow at hflush
    dsimp only at hflush
    repeat' split at hflush
    all_goals cases (Prod.mk.inj hflush).1

theorem Inv.deliveredOnce {lookups : ForwardLookups D} {s : QueueState D} (h : Inv s) : DeliveredOnce lookups s := by
  have hmemory := h.memory
  refine ⟨fun i hi => ?_, fun e identities s' hstep i hi => ?_,
    fun e i groupId itemCount s' hstep hok => ?_⟩
  · obtain ⟨group, hgroup, hholds⟩ := hmemory.owed i hi
    refine ⟨group.key, ⟨group, hmemory.keyed.get?.mp hgroup, hholds⟩, ?_⟩
    rintro key ⟨group', hget, hholds'⟩
    have hmem : group' ∈ s.groups.values := InsertionMap.mem_values.mpr ⟨key, hget⟩
    rw [← hmemory.keyed key group' hget]
    exact hmemory.clean.once group' hmem group hgroup i hholds' hholds
  · obtain ⟨group, hgroup, hholds⟩ := started_step hstep
    rw [← hmemory.recent]
    exact hmemory.clean.fresh group hgroup i (hholds i hi)
  · obtain ⟨_, _, _, _, _, _, _, input, rfl, hinput, henqueue⟩ := accepted_step hstep
    obtain ⟨rfl, hundelivered, hnot⟩ := accepted_enqueue henqueue
    have hfree : ∀ group ∈ s.groups.values, group.holds input.identity = false := by
      intro group hgroup
      by_contra hholds
      have hholds : group.holds input.identity = true := by simpa using hholds
      exact absurd hholds (by simp [hnot group (hok input hinput group hgroup hholds)])
    refine ⟨?_, hfree, by rwa [← hmemory.recent]⟩
    by_contra howed
    obtain ⟨group, hgroup, hholds⟩ := hmemory.owed input.identity (by simpa using howed)
    simp [hfree group hgroup] at hholds

theorem grouped_delivered_once (lookups : ForwardLookups D) (s : QueueState D)
    (h : (system lookups).ReachUnder (JoinsHolder lookups) initial s) : DeliveredOnce lookups s :=
  (h.invariant inv_initial fun _ _ _ _ hinv hok hstep ↦ inv_step hinv hok hstep).deliveredOnce

/-! ## A message that is delivered twice -/

/-- Messages of one sender in one group chat; the data of a message is the message it answers. -/
def chatLookups : ForwardLookups (Option JsString) where
  messageContextScopeForForward _ record :=
    some ⟨some (js "napcat"), js "napcat:group:100", js "200", record.data⟩
  stableSenderGroupingKey _ _ := some (js "e3b0c442")
  digest text := text

def chatMessage (id : String) (replyTo : Option JsString) : Event (Option JsString) :=
  .enqueue (js "group_message") ⟨some (js id), js "0", js id, replyTo⟩ none
    ⟨true, some 6, some 12, some 20⟩ 0 (js id) true

def chatKey (reply : String) : JsString :=
  js "napcat" ++ js "|" ++ js "napcat:group:100" ++ js "|sender:" ++ js "e3b0c442" ++ js "|reply:" ++
    js reply

def chatIdentity (id : String) : Identity :=
  js "napcat" ++ js "|" ++ js "napcat:group:100" ++ js "|message:" ++ js id

/-- Message m joins the group of the answer a; it comes again while that group is being delivered,
and the queue makes a second group of it. -/
theorem delivered_twice : ¬ ∀ s, (system chatLookups).Reach initial s →
    ∀ e identities s', step chatLookups e s = some (.started identities, s') →
      ∀ i ∈ identities, i ∉ takeLast maxMessageGroupDeliveredIdentities s.resolved := by
  intro hall
  have hrun : ((system chatLookups).run initial
      [chatMessage "a" (some (js "r1")), chatMessage "m" none, .flushNow (chatKey "r1") true,
        chatMessage "m" none, .resolve (chatKey "r1") 0 true true]).any
      (fun s ↦ decide (chatIdentity "m" ∈ takeLast maxMessageGroupDeliveredIdentities s.resolved) &&
        (step chatLookups (.flushNow (chatKey "none") true) s).any fun r ↦
          match r.1 with
          | .started identities => decide (chatIdentity "m" ∈ identities)
          | _ => false) = true := by
    decide +kernel
  obtain ⟨s, hs, hend⟩ := (Option.any_eq_true _ _).mp hrun
  obtain ⟨hresolved, hstarted⟩ := (Bool.and_eq_true _ _).mp hend
  obtain ⟨⟨a, s'⟩, hstep, hmem⟩ := (Option.any_eq_true _ _).mp hstarted
  dsimp only at hmem
  split at hmem
  case h_1 _ identities =>
    refine hall s (System.run_reach hs) _ identities s' hstep (chatIdentity "m") ?_ ?_
    · simpa using hmem
    · simpa using hresolved
  case h_2 => cases hmem

/-- No group holds the message that is enqueued. -/
def enqueuesFresh (lookups : ForwardLookups D) : Event D → QueueState D → Bool
  | .enqueue routeKind record extraValues policy _ _ _, s =>
    (messageGroupEnqueueInputForForward lookups routeKind record extraValues policy).all fun input ↦
      s.groups.values.all fun group ↦ !group.holds input.identity
  | _, _ => true

theorem enqueuesFresh_joinsHolder {lookups : ForwardLookups D} {e : Event D} {s : QueueState D}
    (h : enqueuesFresh lookups e s = true) : JoinsHolder lookups e s := by
  cases e with
  | enqueue routeKind record extraValues policy now uuid persists =>
    intro input hinput group hgroup hholds
    simp only [enqueuesFresh, hinput, Option.all_some, List.all_eq_true] at h
    simp only [Bool.not_eq_true'] at h
    exact absurd hholds (by simp [h group hgroup])
  | _ => trivial

/-- Two messages of one group are delivered, and one of them comes again. -/
theorem grouped_delivered_once_chat : ∃ s,
    (system chatLookups).ReachUnder (JoinsHolder chatLookups) initial s ∧
      s.resolved.length = 2 ∧ DeliveredOnce chatLookups s := by
  have hrun : ((system chatLookups).runUnder (fun e s ↦ enqueuesFresh chatLookups e s = true) initial
      [chatMessage "a" (some (js "r1")), chatMessage "m" none, .flushNow (chatKey "r1") true,
        .resolve (chatKey "r1") 0 true true, chatMessage "m" none]).any
      (fun s ↦ decide (s.resolved.length = 2)) = true := by
    decide +kernel
  obtain ⟨s, hs, hend⟩ := (Option.any_eq_true _ _).mp hrun
  have hreach := (System.runUnder_reach hs).mono fun _ _ ↦ enqueuesFresh_joinsHolder
  exact ⟨s, hreach, of_decide_eq_true hend, grouped_delivered_once chatLookups s hreach⟩

end RabiRoute.MessageGrouping
