import RabiRoute.Manager.StorageMutationPoolOrder

/-!
# One storage mutation at a time

`Accounted`: each call waits, is active or has settled, and no call is in two places; a call whose
authority was refused has no admission.  `Halted`: what a pool that stops has given up.
-/

open Transitions

namespace RabiRoute.StorageMutationPool

variable {T V : Type} {s s' : Pool T V} {a : ActiveMutation T} {i id : Nat}

namespace Pool

/-! ## Where each call is -/

/-- The call has left the queue. -/
def Left (s : Pool T V) (n : Nat) : Prop := n < s.calls ∧ ∀ pending ∈ s.queue, pending.id ≠ n

def waiting (s : Pool T V) (n : Nat) : Nat := (s.queue.map PendingMutation.id).count n

def running (s : Pool T V) (n : Nat) : Nat :=
  match s.active with
  | some active => if active.pending.id = n then 1 else 0
  | none => 0

def finished (s : Pool T V) (n : Nat) : Nat := (s.settled.map Prod.fst).count n

structure Accounted (s : Pool T V) : Prop where
  places : ∀ n, s.waiting n + s.running n + s.finished n = if n < s.calls then 1 else 0
  sentLeft : ∀ r ∈ s.sent, s.Left r.id
  own : ∀ o ∈ s.settled, ∀ r, o.2.answer = some r → r = o.1
  answered : ∀ o ∈ s.settled, ∀ v, o.2.result = .ok v → o.2.answer = some o.1
  decidedLeft : ∀ d ∈ s.decisions, s.Left d.1
  refusedLeft : ∀ n ∈ s.refused, s.Left n
  undecided : ∀ a, s.active = some a → a.admission = none →
    a.pending.id ∉ s.refused ∧ ∀ b, (a.pending.id, b) ∉ s.decisions
  never : ∀ n ∈ s.refused, (n, true) ∉ s.decisions

/-- The step moves no call and decides nothing. -/
structure SameCalls (s s' : Pool T V) : Prop where
  queue : s'.queue = s.queue
  active : ∀ a', s'.active = some a' →
    ∃ a, s.active = some a ∧ a'.pending = a.pending ∧ a'.admission = a.admission
  idle : s'.active = none → s.active = none
  settled : s'.settled = s.settled
  calls : s'.calls = s.calls
  sent : ∀ r ∈ s'.sent, ∃ q ∈ s.sent, r.id = q.id
  decisions : s'.decisions = s.decisions
  refused : s'.refused = s.refused

theorem SameCalls.of_eq (hqueue : s'.queue = s.queue) (hactive : s'.active = s.active)
    (hsettled : s'.settled = s.settled) (hcalls : s'.calls = s.calls) (hsent : s'.sent = s.sent)
    (hdecisions : s'.decisions = s.decisions) (hrefused : s'.refused = s.refused) : SameCalls s s' :=
  ⟨hqueue, fun a h => ⟨a, hactive ▸ h, rfl, rfl⟩, fun h => hactive ▸ h, hsettled, hcalls,
    fun r hr => ⟨r, hsent ▸ hr, rfl⟩, hdecisions, hrefused⟩

theorem Quiet.sameCalls (h : Quiet s s') : SameCalls s s' where
  queue := h.queue
  active a' ha' := by
    obtain ⟨a, ha, hsame⟩ := h.active a' ha'
    exact ⟨a, ha, hsame.pending, h.admission a a' ha ha'⟩
  idle := h.idle
  settled := h.settled
  calls := h.calls
  sent r hr := ⟨r, h.sent ▸ hr, rfl⟩
  decisions := h.decisions
  refused := h.refused

theorem running_some (h : s.active = some a) (n : Nat) : s.running n = if a.pending.id = n then 1 else 0 := by
  rw [running, h]

theorem running_none (h : s.active = none) (n : Nat) : s.running n = 0 := by
  rw [running, h]

theorem SameCalls.running (h : SameCalls s s') (n : Nat) : s'.running n = s.running n := by
  cases ha' : s'.active with
  | none => rw [running_none ha', running_none (h.idle ha')]
  | some a' =>
    obtain ⟨a, ha, hpending, -⟩ := h.active a' ha'
    rw [running_some ha', running_some ha, hpending]

theorem Accounted.same (h : s.Accounted) (hs : SameCalls s s') : s'.Accounted := by
  have hleft : ∀ n, s.Left n → s'.Left n := fun n hn => by
    unfold Left
    rw [hs.queue, hs.calls]
    exact hn
  refine ⟨fun n => ?_, fun r hr => ?_, hs.settled ▸ h.own, hs.settled ▸ h.answered, fun d hd => ?_, fun n hn => ?_,
    fun a' ha' hnone => ?_, hs.refused ▸ hs.decisions ▸ h.never⟩
  · rw [hs.running, hs.calls]
    unfold waiting finished
    rw [hs.queue, hs.settled]
    exact h.places n
  · obtain ⟨q, hq, hid⟩ := hs.sent r hr
    exact hleft r.id (hid ▸ h.sentLeft q hq)
  · exact hleft d.1 (h.decidedLeft d (hs.decisions ▸ hd))
  · exact hleft n (h.refusedLeft n (hs.refused ▸ hn))
  · obtain ⟨a, ha, hpending, hadmission⟩ := hs.active a' ha'
    rw [hpending, hs.refused, hs.decisions]
    exact h.undecided a ha (hadmission ▸ hnone)

/-! ### Calls that arrive and leave the queue -/

theorem Left.mono {n : Nat} (h : s.Left n) (hcalls : s.calls ≤ s'.calls)
    (hqueue : ∀ pending ∈ s'.queue, pending ∈ s.queue ∨ s.calls ≤ pending.id) : s'.Left n := by
  refine ⟨Nat.lt_of_lt_of_le h.1 hcalls, fun pending hp => ?_⟩
  rcases hqueue pending hp with hold | hnew
  · exact h.2 pending hold
  · exact Nat.ne_of_gt (Nat.lt_of_lt_of_le h.1 hnew)

theorem Accounted.execute {checks : Checks T} {call : Call T} (h : s.Accounted) :
    (s.execute checks call).Accounted := by
  rcases execute_cases checks call s with ⟨error, heq⟩ | ⟨-, pending, hid, heq⟩ <;> rw [heq]
  · have hleft : ∀ n, s.Left n → ({ s with calls := s.calls + 1 }.rejectWith s.calls error : Pool T V).Left n :=
      fun n hn => hn.mono (Nat.le_succ _) fun pending hp => .inl hp
    refine ⟨fun n => ?_, fun r hr => hleft r.id (h.sentLeft r hr), fun o ho => ?_, fun o ho => ?_,
      fun d hd => hleft d.1 (h.decidedLeft d hd), fun n hn => hleft n (h.refusedLeft n hn), h.undecided, h.never⟩
    · have hn := h.places n
      show s.waiting n + s.running n + ((s.settled ++ [_]).map Prod.fst).count n = if n < s.calls + 1 then 1 else 0
      simp only [finished, List.map_append, List.count_append, List.map_cons, List.map_nil, List.count_singleton,
        beq_iff_eq] at hn ⊢
      split at hn <;> split <;> split <;> omega
    · rcases List.mem_append.mp ho with hold | hnew
      · exact h.own o hold
      · intro r hr
        rw [List.mem_singleton.mp hnew] at hr
        cases hr
    · rcases List.mem_append.mp ho with hold | hnew
      · exact h.answered o hold
      · intro v hv
        rw [List.mem_singleton.mp hnew] at hv
        cases hv
  · have hleft : ∀ n, s.Left n →
        ({ s with calls := s.calls + 1, queue := s.queue ++ [pending] } : Pool T V).Left n :=
      fun n hn => hn.mono (Nat.le_succ _) fun p hp => (List.mem_append.mp hp).imp id fun hnew => by
        obtain rfl := List.mem_singleton.mp hnew
        exact Nat.le_of_eq hid.symm
    refine ⟨fun n => ?_, fun r hr => hleft r.id (h.sentLeft r hr), h.own, h.answered,
      fun d hd => hleft d.1 (h.decidedLeft d hd), fun n hn => hleft n (h.refusedLeft n hn), h.undecided, h.never⟩
    have hn := h.places n
    show ((s.queue ++ [pending]).map PendingMutation.id).count n + s.running n + s.finished n =
      if n < s.calls + 1 then 1 else 0
    simp only [waiting, List.map_append, List.count_append, List.map_cons, List.map_nil, List.count_singleton,
      beq_iff_eq, hid] at hn ⊢
    split at hn <;> split <;> split <;> omega

theorem not_left_of_mem {pending : PendingMutation T} (h : pending ∈ s.queue) : ¬ s.Left pending.id :=
  fun hleft => hleft.2 pending h rfl

/-- Calls leave the queue with an error; those whose authority was refused among them. -/
theorem Accounted.reject (h : s.Accounted) (hqueue : ∀ pending ∈ s'.queue, pending ∈ s.queue)
    (hcount : ∀ n, s'.waiting n + s'.finished n = s.waiting n + s.finished n)
    (hsettled : ∀ o ∈ s'.settled, o ∈ s.settled ∨ (o.2.answer = none ∧ ∃ error, o.2.result = .error error))
    (hactive : s'.active = s.active) (hcalls : s'.calls = s.calls) (hsent : s'.sent = s.sent)
    (hdecisions : s'.decisions = s.decisions)
    (hrefused : ∀ n ∈ s'.refused, n ∈ s.refused ∨
      s'.Left n ∧ ∃ pending ∈ s.queue, pending.id = n ∧ s.running n = 0) : s'.Accounted := by
  have hleft : ∀ n, s.Left n → s'.Left n := fun n hn =>
    hn.mono (Nat.le_of_eq hcalls.symm) fun pending hp => .inl (hqueue pending hp)
  refine ⟨fun n => ?_, fun r hr => hleft r.id (h.sentLeft r (hsent ▸ hr)), fun o ho r hr => ?_, fun o ho v hv => ?_,
    fun d hd => hleft d.1 (h.decidedLeft d (hdecisions ▸ hd)), fun n hn => ?_, fun a ha hnone => ?_,
    fun n hn => ?_⟩
  · have hn := h.places n
    have hc := hcount n
    have hr : s'.running n = s.running n := by rw [running, hactive, running]
    rw [hr, hcalls]
    omega
  · rcases hsettled o ho with hold | ⟨hnone, -⟩
    · exact h.own o hold r hr
    · rw [hnone] at hr; cases hr
  · rcases hsettled o ho with hold | ⟨-, error, herror⟩
    · exact h.answered o hold v hv
    · rw [herror] at hv; cases hv
  · rcases hrefused n hn with hold | ⟨hnew, -⟩
    · exact hleft n (h.refusedLeft n hold)
    · exact hnew
  · rw [hactive] at ha
    rw [hdecisions]
    refine ⟨fun hmem => ?_, (h.undecided a ha hnone).2⟩
    rcases hrefused _ hmem with hold | ⟨-, pending, -, -, hidle⟩
    · exact (h.undecided a ha hnone).1 hold
    · rw [running_some ha, if_pos rfl] at hidle
      cases hidle
  · rw [hdecisions]
    rcases hrefused n hn with hold | ⟨-, pending, hp, rfl, -⟩
    · exact h.never n hold
    · exact fun hd => not_left_of_mem hp (h.decidedLeft _ hd)

theorem mem_rejected (error : MutationError) (ids : List Nat) {outcomes : List (Nat × Outcome V)}
    {o : Nat × Outcome V} (h : o ∈ outcomes ++ ids.map fun n => (n, { result := .error error })) :
    o ∈ outcomes ∨ (o.2.answer = none ∧ ∃ error, o.2.result = .error error) := by
  rcases List.mem_append.mp h with hold | hnew
  · exact .inl hold
  · obtain ⟨n, -, rfl⟩ := List.mem_map.mp hnew
    exact .inr ⟨rfl, error, rfl⟩

theorem Accounted.rejectQueue (h : s.Accounted) (error : MutationError) : (s.rejectQueue error).Accounted := by
  refine h.reject (fun _ hp => by cases hp) (fun n => ?_) (fun o ho => ?_) rfl rfl rfl rfl fun n hn => .inl hn
  · have hmap : (s.queue.map fun pending => (pending.id, ({ result := .error error } : Outcome V))).map Prod.fst =
        s.queue.map PendingMutation.id := by
      rw [List.map_map]; rfl
    show 0 + ((s.settled ++ _).map Prod.fst).count n = _
    rw [List.map_append, hmap, List.count_append]
    unfold waiting finished
    omega
  · refine mem_rejected error (s.queue.map PendingMutation.id) ?_
    rw [List.map_map]
    exact ho

/-- The call `id` leaves the queue. -/
theorem Accounted.rejectPending {queue : List (PendingMutation T)} {refused : List Nat} (h : s.Accounted)
    (error : MutationError) (hqueue : ∀ pending ∈ queue, pending ∈ s.queue)
    (hcount : ∀ n, (queue.map PendingMutation.id).count n + (if id = n then 1 else 0) = s.waiting n)
    (hrefused : refused = s.refused ∨ refused = s.refused ++ [id]) :
    ({ s with queue, refused }.rejectPending id error : Pool T V).Accounted := by
  -- the call was in the queue, so it is not active and it does not wait any more
  have hid := h.places id
  have hwaits := hcount id
  rw [if_pos rfl] at hwaits
  have hcalls : id < s.calls := by
    by_contra hge
    rw [if_neg hge] at hid
    omega
  rw [if_pos hcalls] at hid
  have hmem : id ∈ s.queue.map PendingMutation.id := List.count_pos_iff.mp (by unfold waiting at hwaits; omega)
  obtain ⟨pending, hp, hpid⟩ := List.mem_map.mp hmem
  refine h.reject hqueue (fun n => ?_)
    (fun o ho => mem_rejected error [id] ho) rfl rfl rfl rfl fun n hn => ?_
  · have hn := hcount n
    show (queue.map PendingMutation.id).count n + ((s.settled ++ [_]).map Prod.fst).count n = _
    simp only [finished, List.map_append, List.count_append, List.map_cons, List.map_nil, List.count_singleton,
      beq_iff_eq]
    omega
  · rcases hrefused with rfl | rfl
    · exact .inl hn
    · rcases List.mem_append.mp hn with hold | hnew
      · exact .inl hold
      · obtain rfl := List.mem_singleton.mp hnew
        refine .inr ⟨⟨hcalls, fun q hq hqn => ?_⟩, pending, hp, hpid, by omega⟩
        have hpos : 0 < (queue.map PendingMutation.id).count n :=
          List.count_pos_iff.mpr (List.mem_map.mpr ⟨q, hq, hqn⟩)
        omega

/-! ### The active call -/

/-- The first call of the queue becomes the active one. -/
theorem Accounted.start {pending : PendingMutation T} (h : s.Accounted) (hidle : s.active = none) (hqueue : s.queue =
    pending :: s'.queue) (hactive : s'.active = some a) (hpending : a.pending = pending) (hsettled : s'.settled =
    s.settled) (hcalls : s'.calls = s.calls) (hsent : ∀ r ∈ s'.sent, r ∈ s.sent ∨ r.id = pending.id) (hdecisions :
    s'.decisions = s.decisions) (hrefused : s'.refused = s.refused) : s'.Accounted := by
  have hmem : pending ∈ s.queue := hqueue ▸ List.mem_cons_self
  have hleft : ∀ n, s.Left n → s'.Left n := fun n hn =>
    hn.mono (Nat.le_of_eq hcalls.symm) fun p hp => .inl (hqueue ▸ List.mem_cons_of_mem _ hp)
  have hcount : ∀ n, s.waiting n = s'.waiting n + s'.running n := fun n => by
    rw [running_some hactive, hpending, waiting, hqueue, List.map_cons, List.count_cons]
    simp only [waiting, beq_iff_eq]
  have hnew : s'.Left pending.id := by
    have hid := h.places pending.id
    have hc := hcount pending.id
    rw [running_some hactive, hpending, if_pos rfl] at hc
    split at hid
    case isTrue hlt =>
      refine ⟨hcalls ▸ hlt, fun p hp hpid => ?_⟩
      have hpos : 0 < s'.waiting pending.id := List.count_pos_iff.mpr (List.mem_map.mpr ⟨p, hp, hpid⟩)
      omega
    case isFalse => omega
  refine ⟨fun n => ?_, fun r hr => ?_, hsettled ▸ h.own, hsettled ▸ h.answered,
    fun d hd => hleft d.1 (h.decidedLeft d (hdecisions ▸ hd)), fun n hn => hleft n (h.refusedLeft n (hrefused ▸ hn)),
    fun b hb _ => ?_, hrefused ▸ hdecisions ▸ h.never⟩
  · have hn := h.places n
    rw [running_none hidle, hcount n] at hn
    rw [hcalls, finished, hsettled, ← hn]
    rfl
  · rcases hsent r hr with hold | hid
    · exact hleft r.id (h.sentLeft r hold)
    · exact hid ▸ hnew
  · obtain rfl := Option.some.inj (hactive.symm.trans hb)
    rw [hpending, hrefused, hdecisions]
    exact ⟨fun hn => not_left_of_mem hmem (h.refusedLeft _ hn), fun b hb => not_left_of_mem hmem (h.decidedLeft _ hb)⟩

/-- The active mutation settles, with the answer to its own request if it succeeds. -/
theorem Accounted.settleActive {outcome : Outcome V} (h : s.Accounted) (hown : ∀ r, outcome.answer = some r → r = id)
    (hanswered : ∀ v, outcome.result = .ok v → outcome.answer = some id) : (s.settleActive id outcome).Accounted := by
  by_cases hex : ∃ a, s.active = some a ∧ a.pending.id = id
  case neg =>
    rw [settleActive_of_ne fun a ha hid => hex ⟨a, ha, hid⟩]
    exact h
  case pos =>
    obtain ⟨a, ha, hid⟩ := hex
    have hnone := active_settleActive outcome ha hid
    have hrest : (s.settleActive id outcome).queue = s.queue ∧
        (s.settleActive id outcome).settled = s.settled ++ [(id, outcome)] ∧
        (s.settleActive id outcome).calls = s.calls ∧ (s.settleActive id outcome).sent = s.sent ∧
        (s.settleActive id outcome).decisions = s.decisions ∧
        (s.settleActive id outcome).refused = s.refused := by
      simp [Pool.settleActive, ha, hid, settle]
    obtain ⟨hqueue, hsettled, hcalls, hsent, hdecisions, hrefused⟩ := hrest
    generalize s.settleActive id outcome = t at hnone hqueue hsettled hcalls hsent hdecisions hrefused ⊢
    have hleft : ∀ n, s.Left n → t.Left n := fun n hn =>
      hn.mono (Nat.le_of_eq hcalls.symm) fun p hp => .inl (hqueue ▸ hp)
    refine ⟨fun n => ?_, fun r hr => hleft r.id (h.sentLeft r (hsent ▸ hr)), fun o ho => ?_, fun o ho => ?_,
      fun d hd => hleft d.1 (h.decidedLeft d (hdecisions ▸ hd)),
      fun n hn => hleft n (h.refusedLeft n (hrefused ▸ hn)),
      fun b hb => (by rw [hnone] at hb; cases hb), hrefused ▸ hdecisions ▸ h.never⟩
    · have hn := h.places n
      rw [running_some ha, hid] at hn
      rw [running_none hnone, hcalls, ← hn]
      simp only [waiting, finished, hqueue, hsettled, List.map_append, List.count_append, List.map_cons,
        List.map_nil, List.count_singleton, beq_iff_eq]
      omega
    · rw [hsettled] at ho
      rcases List.mem_append.mp ho with hold | hnew
      · exact h.own o hold
      · exact List.mem_singleton.mp hnew ▸ hown
    · rw [hsettled] at ho
      rcases List.mem_append.mp ho with hold | hnew
      · exact h.answered o hold
      · exact List.mem_singleton.mp hnew ▸ hanswered

theorem Accounted.fail (h : s.Accounted) (id : Nat) (error : MutationError) :
    (s.settleActive id { result := .error error }).Accounted :=
  h.settleActive (fun _ hr => by cases hr) (fun _ hv => by cases hv)

/-- The admission of the active mutation is decided, for the first time. -/
theorem Accounted.admitted {allowed : Bool} (h : s.Accounted) (ha : s.active = some a) (hnone : a.admission = none)
    (hs : s' = { s with
      active := some { a with
        admission := some (if allowed then .allowed else .denied)
        listening := !allowed && a.listening }
      refused := if allowed then s.refused else s.refused ++ [a.pending.id]
      decisions := s.decisions ++ [(a.pending.id, allowed)] }) : s'.Accounted := by
  subst hs
  have hrunning := h.places a.pending.id
  rw [running_some ha, if_pos rfl] at hrunning
  have hactive : s.Left a.pending.id := by
    split at hrunning
    case isTrue hlt =>
      refine ⟨hlt, fun p hp hpid => ?_⟩
      have hpos : 0 < s.waiting a.pending.id := List.count_pos_iff.mpr (List.mem_map.mpr ⟨p, hp, hpid⟩)
      omega
    case isFalse => omega
  have hundecided := h.undecided a ha hnone
  refine ⟨fun n => ?_, h.sentLeft, h.own, h.answered, fun d hd => ?_, fun n hn => ?_, fun b hb hb' => ?_,
    fun n hn hd => ?_⟩
  · have hn := h.places n
    rw [running_some ha] at hn
    exact hn
  · rcases List.mem_append.mp hd with hold | hnew
    · exact h.decidedLeft d hold
    · rw [List.mem_singleton.mp hnew]
      exact hactive
  · cases allowed with
    | true => exact h.refusedLeft n hn
    | false =>
      rcases List.mem_append.mp hn with hold | hnew
      · exact h.refusedLeft n hold
      · exact List.mem_singleton.mp hnew ▸ hactive
  · obtain rfl := Option.some.inj hb
    cases hb'
  · rcases List.mem_append.mp hd with hold | hnew
    · cases allowed with
      | true => exact h.never n hn hold
      | false =>
        rcases List.mem_append.mp hn with hn | hn
        · exact h.never n hn hold
        · exact hundecided.2 true (List.mem_singleton.mp hn ▸ hold)
    · -- the decision allows the mutation, so its authority was not refused now
      obtain ⟨rfl, rfl⟩ := Prod.mk.inj (List.mem_singleton.mp hnew)
      exact hundecided.1 hn

theorem Accounted.terminateActive (h : s.Accounted) (cause : MutationError) : (s.terminateActive cause).Accounted :=
  h.same (Quiet.terminateActive cause).sameCalls

theorem Accounted.mark {accepted : Bool} (h : s.Accounted) : (s.mark id accepted).Accounted := by
  refine h.same ⟨rfl, fun a ha => ⟨a, ha, rfl, rfl⟩, fun ha => ha, rfl, rfl, fun r hr => ?_, rfl, rfl⟩
  obtain ⟨q, hq, hid, -⟩ := mem_sent_mark hr
  exact ⟨q, hq, hid⟩

theorem Accounted.handleActiveMessage {m : Message V} {answer : Option Nat} {authorized sends : Bool} (h : s.Accounted)
    (ha : s.active = some a) (hanswer : m.isFor a.request = true → m.body.isAdmission = false → answer = some
    a.pending.id) : (s.handleActiveMessage a m answer authorized sends).Accounted := by
  generalize hd : s.handleActiveMessage a m answer authorized sends = d
  cases hd ▸ handleActiveMessage_cases a m answer authorized sends s with
  | nothing => exact h
  | terminated cause => exact h.terminateActive cause
  | admitted allowed sends t hnone ht =>
    have hadmitted : t.Accounted := h.admitted ha hnone ht
    split
    · exact hadmitted
    · exact hadmitted.terminateActive decisionError
  | accepted result hfor hbody =>
    rw [hanswer hfor hbody]
    exact Accounted.settleActive h.mark (fun r hr => (Option.some.inj hr).symm) fun _ _ => rfl

theorem Accounted.drain {input : DrainInput} (h : s.Accounted) : (s.drain input).2.Accounted := by
  generalize hd : s.drain input = d
  cases hd ▸ drain_cases input s with
  | nothing => exact h
  | idle => exact h.same (.of_eq rfl rfl rfl rfl rfl rfl rfl)
  | failed pending queue refused error hqueue hrefused =>
    refine h.rejectPending error (fun p hp => hqueue ▸ List.mem_cons_of_mem _ hp) (fun n => ?_) hrefused
    rw [waiting, hqueue, List.map_cons, List.count_cons]
    simp only [beq_iff_eq]
  | sent pending queue slot t hqueue hidle hfree hslot =>
    have hsend : ∀ u : Pool T V, u.queue = queue → u.settled = s.settled → u.calls = s.calls →
        u.sent = s.sent → u.decisions = s.decisions → u.refused = s.refused →
        (u.dispatch pending slot input).Accounted := by
      intro u huqueue hsettled hcalls hsent hdecisions hrefused
      have hstart : ({ u with
          active := some {
            slot, pending, request := u.requestOf pending input.nonce, listening := pending.hasSignal }
          stateValue := .running
          sent := u.sent ++ [{ id := pending.id, slot, request := u.requestOf pending input.nonce }] } :
            Pool T V).Accounted := by
        refine h.start hidle (hqueue.trans (congrArg (pending :: ·) huqueue.symm)) rfl rfl hsettled hcalls
          (fun r hr => ?_) hdecisions hrefused
        rcases List.mem_append.mp hr with hold | hnew
        · exact .inl (hsent ▸ hold)
        · exact .inr (congrArg Sent.id (List.mem_singleton.mp hnew))
      unfold Pool.dispatch
      dsimp only
      split
      · exact hstart
      · exact hstart.terminateActive sendError
    rcases useChildSlot_cases hslot with ⟨rfl, -⟩ | ⟨-, -, pid, rfl⟩
    · exact hsend _ rfl rfl rfl rfl rfl rfl
    · exact hsend _ rfl rfl rfl rfl rfl rfl

theorem count_filter_ne (queue : List (PendingMutation T)) (n : Nat)
    (hid : (queue.map PendingMutation.id).count id = 1) :
    ((queue.filter fun pending => pending.id ≠ id).map PendingMutation.id).count n + (if id = n then 1 else 0) =
      (queue.map PendingMutation.id).count n := by
  have hfilter : (queue.filter fun pending => pending.id ≠ id).map PendingMutation.id =
      (queue.map PendingMutation.id).filter fun k => k ≠ id := by
    rw [List.filter_map]; rfl
  rw [hfilter]
  by_cases hn : id = n
  · subst hn
    rw [if_pos rfl, hid, List.count_eq_zero.mpr (by simp)]
  · rw [if_neg hn, List.count_filter (by simpa using fun h => hn h.symm), Nat.add_zero]

theorem Accounted.abort (h : s.Accounted) : (s.abort id).Accounted := by
  unfold Pool.abort
  split
  case isTrue hany =>
    obtain ⟨pending, hp, hpid⟩ := List.any_eq_true.mp hany
    simp only [Bool.and_eq_true, decide_eq_true_eq] at hpid
    have hpos : 0 < s.waiting id := List.count_pos_iff.mpr (List.mem_map.mpr ⟨pending, hp, hpid.1⟩)
    have hplaces := h.places id
    have hone : s.waiting id = 1 := by
      split at hplaces <;> omega
    exact Accounted.rejectPending h abortedError (fun p hp => List.mem_of_mem_filter hp)
      (fun n => count_filter_ne s.queue n hone) (.inl rfl)
  case isFalse =>
    split
    · split
      · exact h.terminateActive abortedError
      · exact h
    · exact h

theorem Accounted.stopEnd (h : s.Accounted) : s.stopEnd.2.Accounted := by
  unfold Pool.stopEnd
  split
  · exact h.same (.of_eq rfl rfl rfl rfl rfl rfl rfl)
  · exact h.same (.of_eq rfl rfl rfl rfl rfl rfl rfl)

theorem Accounted.stopChildren (h : s.Accounted) : s.stopChildren.2.Accounted := by
  unfold Pool.stopChildren
  split
  · exact h.same ((Quiet.terminateAndConfirm _).trans (.tasks _)).sameCalls
  · exact h.stopEnd

theorem Accounted.stop (h : s.Accounted) : s.stop.2.Accounted := by
  unfold Pool.stop
  split
  · exact h
  split
  · exact h
  have hstopping : ({ s with accepting := false, stateValue := .stopping, stopFlight := true } :
      Pool T V).Accounted := h.same (.of_eq rfl rfl rfl rfl rfl rfl rfl)
  have hqueue := hstopping.rejectQueue poolStoppedError
  dsimp only
  generalize Pool.rejectQueue poolStoppedError _ = t at hqueue ⊢
  split
  case h_1 b hb =>
    exact hqueue.same ((Quiet.marks _ _ hb).trans ((Quiet.terminateAndConfirm _).trans (.tasks _))).sameCalls
  · exact hqueue.stopChildren

theorem Accounted.resume {task : Task} {confirmed : Bool} (h : s.Accounted) :
    (s.resume task confirmed).2.Accounted := by
  have hblock : ∀ i, (s.blockTermination i).Accounted := fun i => h.same (.of_eq rfl rfl rfl rfl rfl rfl rfl)
  unfold Pool.resume
  cases task <;> cases confirmed <;> dsimp only
  case terminateActive.true id slot cause known => exact h.fail id cause
  case terminateActive.false id slot cause known => exact ((hblock slot).fail id _).rejectQueue _
  case terminateIdle.true slot known => exact h
  case terminateIdle.false slot known => exact (hblock slot).rejectQueue _
  case stopActive.true id slot known => exact (h.fail id _).stopChildren
  case stopActive.false id slot known => exact ((hblock slot).fail id _).same (.of_eq rfl rfl rfl rfl rfl rfl rfl)
  case stopChild.true slot known => exact h.stopEnd
  case stopChild.false slot known => exact (hblock slot).same (.of_eq rfl rfl rfl rfl rfl rfl rfl)

theorem Accounted.handleChildClose {code : Option Nat} {signal : Option JsString} (h : s.Accounted) :
    (s.handleChildClose i code signal).Accounted := by
  have hclosed : (s.closeSlot i).Accounted := h.same (.of_eq rfl rfl rfl rfl rfl rfl rfl)
  have hidle : ∀ t : Pool T V, t.Accounted → t.becomeIdle.Accounted := fun t ht => by
    unfold becomeIdle
    split
    · exact ht.same (.of_eq rfl rfl rfl rfl rfl rfl rfl)
    · exact ht
  unfold Pool.handleChildClose
  dsimp only
  split
  · exact h
  · refine hidle _ ?_
    unfold exitActive
    split
    · split
      · exact hclosed.fail _ _
      · exact hclosed
    · exact hclosed

end Pool

def Task.stops : Task → Bool
  | .stopActive .. | .stopChild .. => true
  | _ => false

namespace Pool

/-- No child is alive, and nothing is queued or active. -/
def Down (s : Pool T V) : Prop :=
  s.queue = [] ∧ s.active = none ∧ ∀ i < s.spawnedChildren, (s.slots i).closed = true

structure Halted (s : Pool T V) : Prop where
  queue : s.accepting = false → s.queue = []
  tasks : ∀ task ∈ s.tasks, task.stops = true → s.accepting = false
  stopped : s.stateValue = .stopped → s.accepting = false ∧ s.Down

/-- The step starts no stop, and a stopped pool stays down. -/
theorem Halted.mono (h : s.Halted) (haccepting : s'.accepting = s.accepting)
    (hqueue : ∀ pending ∈ s'.queue, pending ∈ s.queue ∨ s.accepting = true)
    (htasks : ∀ task ∈ s'.tasks, task ∈ s.tasks ∨ task.stops = false)
    (hstopped : s'.stateValue = .stopped → s.stateValue = .stopped ∧ (s.active = none → s'.active = none) ∧
      s'.spawnedChildren = s.spawnedChildren ∧ ∀ i, (s.slots i).closed = true → (s'.slots i).closed = true) :
    s'.Halted := by
  have hempty : s'.accepting = false → s'.queue = [] := fun hacc => by
    rw [haccepting] at hacc
    refine List.eq_nil_iff_forall_not_mem.mpr fun p hp => ?_
    rcases hqueue p hp with hold | htrue
    · rw [h.queue hacc] at hold; cases hold
    · rw [hacc] at htrue; cases htrue
  refine ⟨hempty, fun task ht hstops => ?_, fun hs => ?_⟩
  · rcases htasks task ht with hold | hnot
    · exact haccepting.trans (h.tasks task hold hstops)
    · rw [hstops] at hnot; cases hnot
  · obtain ⟨hs, hactive, hspawned, hclosed⟩ := hstopped hs
    obtain ⟨hacc, -, hnone, hall⟩ := h.stopped hs
    have hacc' := haccepting.trans hacc
    refine ⟨hacc', hempty hacc', hactive hnone, fun i hi => hclosed i (hall i (hspawned ▸ hi))⟩

theorem Halted.quiet (h : s.Halted) (hs : Quiet s s')
    (htasks : ∀ task ∈ s'.tasks, task ∈ s.tasks ∨ task.stops = false) : s'.Halted := by
  refine h.mono hs.accepting (fun p hp => .inl (hs.queue ▸ hp)) htasks fun hstopped =>
    ⟨hs.stopped hstopped, fun hnone => ?_, hs.spawnedChildren, fun i hc => (hs.closed i).trans hc⟩
  cases ha : s'.active with
  | none => rfl
  | some a' =>
    obtain ⟨a, ha, -⟩ := hs.active a' ha
    rw [hnone] at ha
    cases ha

/-- A step that leaves the state, the children, the queue and the tasks. -/
theorem Halted.of_eq (h : s.Halted) (haccepting : s'.accepting = s.accepting)
    (hqueue : ∀ pending ∈ s'.queue, pending ∈ s.queue) (htasks : s'.tasks = s.tasks)
    (hstate : s'.stateValue = .stopped → s.stateValue = .stopped) (hactive : s'.active = s.active)
    (hspawned : s'.spawnedChildren = s.spawnedChildren) (hslots : s'.slots = s.slots) : s'.Halted :=
  h.mono haccepting (fun p hp => .inl (hqueue p hp)) (fun _ ht => .inl (htasks ▸ ht)) fun hs =>
    ⟨hstate hs, fun hnone => hactive.trans hnone, hspawned, fun _ hc => hslots ▸ hc⟩

theorem tasks_terminateAndConfirm (i : Nat) : (s.terminateAndConfirm i).2.tasks = s.tasks := by
  unfold Pool.terminateAndConfirm
  dsimp only
  split
  · rfl
  · split <;> rfl

theorem Halted.terminateActive (h : s.Halted) (cause : MutationError) : (s.terminateActive cause).Halted := by
  refine h.quiet (.terminateActive cause) fun task ht => ?_
  unfold Pool.terminateActive at ht
  split at ht
  · exact .inl ht
  · split at ht
    · exact .inl ht
    · simp only [tasks_terminateAndConfirm, List.mem_append, List.mem_singleton] at ht
      exact ht.imp id fun hnew => by rw [hnew]; rfl

theorem Halted.settleActive {outcome : Outcome V} (h : s.Halted) : (s.settleActive id outcome).Halted := by
  unfold Pool.settleActive
  split
  · exact h
  · split
    · exact h
    · refine h.mono rfl (fun _ hp => .inl hp) (fun _ ht => .inl ht) fun hs => ?_
      refine ⟨?_, fun _ => rfl, rfl, fun _ hc => hc⟩
      change (if _ then PoolState.idle else s.stateValue) = .stopped at hs
      split at hs
      · cases hs
      · exact hs

theorem Halted.execute {checks : Checks T} {call : Call T} (h : s.Halted) : (s.execute checks call).Halted := by
  rcases execute_cases checks call s with ⟨error, heq⟩ | ⟨hopen, pending, -, heq⟩ <;> rw [heq]
  · exact h.of_eq rfl (fun _ hp => hp) rfl (fun hs => hs) rfl rfl rfl
  · exact h.mono rfl (fun _ _ => .inr hopen) (fun _ ht => .inl ht) fun hs => ⟨hs, fun ha => ha, rfl, fun _ hc => hc⟩

theorem Halted.drain {input : DrainInput} (h : s.Halted) : (s.drain input).2.Halted := by
  generalize hd : s.drain input = d
  cases hd ▸ drain_cases input s with
  | nothing => exact h
  | idle => exact h.of_eq rfl (fun _ hp => hp) rfl (fun hs => by cases hs) rfl rfl rfl
  | failed pending queue refused error hqueue hrefused =>
    exact h.of_eq rfl (fun p hp => hqueue ▸ List.mem_cons_of_mem _ hp) rfl (fun hs => hs) rfl rfl rfl
  | sent pending queue slot t hqueue hidle hfree hslot =>
    have hsend : ∀ u : Pool T V, u.queue = queue → u.accepting = s.accepting → u.tasks = s.tasks →
        (u.dispatch pending slot input).Halted := by
      intro u huqueue haccepting htasks
      have hstart : ({ u with
          active := some {
            slot, pending, request := u.requestOf pending input.nonce, listening := pending.hasSignal }
          stateValue := .running
          sent := u.sent ++ [{ id := pending.id, slot, request := u.requestOf pending input.nonce }] } :
            Pool T V).Halted :=
        h.mono haccepting (fun p hp => .inl (hqueue ▸ List.mem_cons_of_mem _ (huqueue ▸ hp)))
          (fun _ ht => .inl (htasks ▸ ht)) fun hs => by cases hs
      unfold Pool.dispatch
      dsimp only
      split
      · exact hstart
      · exact hstart.terminateActive sendError
    rcases useChildSlot_cases hslot with ⟨rfl, -⟩ | ⟨-, -, pid, rfl⟩
    · exact hsend _ rfl rfl rfl
    · exact hsend _ rfl rfl rfl

theorem Halted.abort (h : s.Halted) : (s.abort id).Halted := by
  unfold Pool.abort
  split
  · exact h.of_eq rfl (fun _ hp => List.mem_of_mem_filter hp) rfl (fun hs => hs) rfl rfl rfl
  · split
    · split
      · exact h.terminateActive abortedError
      · exact h
    · exact h

theorem Halted.mark {accepted : Bool} (h : s.Halted) : (s.mark id accepted).Halted :=
  h.of_eq rfl (fun _ hp => hp) rfl (fun hs => hs) rfl rfl rfl

theorem Halted.handleActiveMessage {m : Message V} {answer : Option Nat} {authorized sends : Bool}
    (h : s.Halted) (ha : s.active = some a) : (s.handleActiveMessage a m answer authorized sends).Halted := by
  generalize hd : s.handleActiveMessage a m answer authorized sends = d
  cases hd ▸ handleActiveMessage_cases a m answer authorized sends s with
  | nothing => exact h
  | terminated cause => exact h.terminateActive cause
  | admitted allowed sends t hnone ht =>
    have hadmitted : t.Halted := by
      subst ht
      refine h.mono rfl (fun _ hp => .inl hp) (fun _ ht => .inl ht) fun hs => ⟨hs, fun hidle => ?_, rfl, fun _ hc => hc⟩
      rw [ha] at hidle
      cases hidle
    split
    · exact hadmitted
    · exact hadmitted.terminateActive decisionError
  | accepted result hfor hbody =>
    unfold Pool.acceptAnswer
    split
    · exact h.mark.settleActive
    · exact h.settleActive

theorem Halted.handleChildError (h : s.Halted) : (s.handleChildError i).Halted := by
  unfold Pool.handleChildError
  split
  · exact h.terminateActive processError
  split
  · refine h.quiet (.terminateIdleChild i) fun task ht => ?_
    simp only [Pool.terminateIdleChild, tasks_terminateAndConfirm, List.mem_append, List.mem_singleton] at ht
    exact ht.imp id fun hnew => by rw [hnew]; rfl
  · exact h

theorem Halted.handleChildClose {code : Option Nat} {signal : Option JsString} (h : s.Halted) :
    (s.handleChildClose i code signal).Halted := by
  have hclosed : (s.closeSlot i).Halted := by
    refine h.mono rfl (fun _ hp => .inl hp) (fun _ ht => .inl ht) fun hs => ⟨hs, fun ha => ha, rfl, fun j hc => ?_⟩
    rw [closed_closeSlot]
    split
    · rfl
    · exact hc
  have hidle : ∀ t : Pool T V, t.Halted → t.becomeIdle.Halted := fun t ht => by
    unfold becomeIdle
    split
    · exact ht.of_eq rfl (fun _ hp => hp) rfl (fun hs => by cases hs) rfl rfl rfl
    · exact ht
  unfold Pool.handleChildClose
  dsimp only
  split
  · exact h
  · refine hidle _ ?_
    unfold exitActive
    split
    · split
      · exact hclosed.settleActive
      · exact hclosed
    · exact hclosed

theorem Halted.blockTermination (h : s.Halted) : (s.blockTermination i).Halted :=
  h.of_eq rfl (fun _ hp => hp) rfl (fun hs => by cases hs) rfl rfl rfl

theorem Halted.rejectQueue (h : s.Halted) (error : MutationError) : (s.rejectQueue error).Halted :=
  h.of_eq rfl (fun _ hp => by cases hp) rfl (fun hs => hs) rfl rfl rfl

/-! ### Stopping -/

/-- A step that sends nothing; when it answers that the pool has stopped, the pool is down. -/
structure Ends (r : Answer × Pool T V) : Prop where
  halted : r.2.Halted
  sends : ∀ id, r.1 ≠ .sent id
  down : r.1 = .stopResolved → r.2.Down

theorem Halted.ends (h : s.Halted) : Ends (.none, s) := ⟨h, by simp, by simp⟩

theorem Halted.stopFails (h : s.Halted) : Ends s.stopFails :=
  ⟨h.of_eq rfl (fun _ hp => hp) rfl (fun hs => hs) rfl rfl rfl, by simp [Pool.stopFails], by simp [Pool.stopFails]⟩

theorem Halted.stopEnd (h : s.Halted) (ho : s.Orderly) (hacc : s.accepting = false) : Ends s.stopEnd := by
  unfold Pool.stopEnd
  split
  · exact h.stopFails
  case isFalse hfree =>
    simp only [Bool.or_eq_true, not_or, Option.isSome_iff_ne_none, ne_eq, Decidable.not_not, Option.any_eq_true,
      not_exists, not_and, Bool.not_eq_true', Bool.not_eq_false] at hfree
    obtain ⟨⟨hidle, hblocked⟩, hchild⟩ := hfree
    have hdown : s.Down := by
      refine ⟨h.queue hacc, hidle, fun i hi => ?_⟩
      cases hc : (s.slots i).closed with
      | true => rfl
      | false =>
        -- a child that lives is the child of the pool, or the pool is blocked
        rcases ho.live i hi hc with hmine | ⟨b, hb, -⟩
        · exact hc.symm.trans (hchild i hmine)
        · rw [hblocked] at hb; cases hb
    exact ⟨⟨h.queue, h.tasks, fun _ => ⟨hacc, hdown⟩⟩, by simp, fun _ => hdown⟩

theorem Halted.await (h : s.Halted) (task : Task) (hstops : s.accepting = false) :
    Ends (Answer.none, { (s.terminateAndConfirm task.slot).2 with
      tasks := (s.terminateAndConfirm task.slot).2.tasks ++ [task] }) := by
  have hquiet := Quiet.terminateAndConfirm (s := s) task.slot
  have hconfirm : (s.terminateAndConfirm task.slot).2.Halted :=
    h.quiet hquiet fun t ht => .inl (tasks_terminateAndConfirm (s := s) task.slot ▸ ht)
  refine Halted.ends ⟨hconfirm.queue, fun t ht hs => ?_, hconfirm.stopped⟩
  rcases List.mem_append.mp ht with hold | hnew
  · exact hconfirm.tasks t hold hs
  · exact hquiet.accepting.trans hstops

theorem Halted.stopChildren (h : s.Halted) (ho : s.Orderly) (hacc : s.accepting = false) : Ends s.stopChildren := by
  unfold Pool.stopChildren
  split
  case h_1 i hi => exact h.await (.stopChild i _) hacc
  case h_2 => exact h.stopEnd ho hacc

theorem Halted.stop (h : s.Halted) (ho : s.Orderly) : Ends s.stop := by
  unfold Pool.stop
  split
  case isTrue hstopped => exact ⟨h, by simp, fun _ => (h.stopped hstopped).2⟩
  split
  · exact h.ends
  have hstopping : ({ s with accepting := false, stateValue := .stopping, stopFlight := true }.rejectQueue
      poolStoppedError : Pool T V).Halted := ⟨fun _ => rfl, fun _ _ _ => rfl, fun hs => by cases hs⟩
  have horderly : ({ s with accepting := false, stateValue := .stopping, stopFlight := true }.rejectQueue
      poolStoppedError : Pool T V).Orderly := ho.of_eq rfl rfl rfl rfl rfl rfl rfl
  have hacc : ({ s with accepting := false, stateValue := .stopping, stopFlight := true }.rejectQueue
      poolStoppedError : Pool T V).accepting = false := rfl
  dsimp only
  generalize Pool.rejectQueue poolStoppedError _ = t at hstopping horderly hacc ⊢
  split
  case h_1 b hb =>
    exact Halted.await (hstopping.quiet (Quiet.marks _ _ hb) fun _ ht => .inl ht) (.stopActive b.pending.id b.slot _) hacc
  case h_2 => exact hstopping.stopChildren horderly hacc

theorem Halted.resume {task : Task} {confirmed : Bool} {tasks : List Task} (h : s.Halted) (ho : s.Orderly)
    (hmem : task ∈ s.tasks) (hconfirmed : s.confirmation task = some confirmed)
    (htasks : ∀ t ∈ tasks, t ∈ s.tasks) : Ends ({ s with tasks }.resume task confirmed) := by
  have ht : ({ s with tasks } : Pool T V).Halted :=
    h.mono rfl (fun _ hp => .inl hp) (fun t ht => .inl (htasks t ht)) fun hs => ⟨hs, fun ha => ha, rfl, fun _ hc => hc⟩
  have hot : ({ s with tasks } : Pool T V).Orderly :=
    ⟨ho.toGuarded.same (.of_eq rfl rfl rfl rfl rfl rfl),
      ho.toAwaited.mono htasks (Nat.le_refl _) (fun _ _ hc => hc) ho.flights (.of_eq rfl)⟩
  have hacc : task.stops = true → s.accepting = false := h.tasks task hmem
  unfold Pool.resume
  cases task <;> cases confirmed <;> dsimp only
  case terminateActive.true id slot cause known => exact ht.settleActive.ends
  case terminateActive.false id slot cause known => exact (ht.blockTermination.settleActive.rejectQueue _).ends
  case terminateIdle.true slot known => exact ht.ends
  case terminateIdle.false slot known => exact (ht.blockTermination.rejectQueue _).ends
  case stopActive.true id slot known =>
    have hclosed : (s.slots slot).closed = true := closed_of_confirmation ho hmem hconfirmed
    refine Halted.stopChildren ht.settleActive (hot.settleActive fun r hr hid => .inr (.inl ?_)) ?_
    · rw [(ho.requests _ hmem id rfl).2 r hr hid]
      exact hclosed
    · unfold Pool.settleActive
      split
      · exact hacc rfl
      · split <;> exact hacc rfl
  case stopActive.false id slot known => exact ht.blockTermination.settleActive.stopFails
  case stopChild.true slot known => exact ht.stopEnd hot (hacc rfl)
  case stopChild.false slot known => exact ht.blockTermination.stopFails

end Pool

/-! ## Every run -/

open Pool

structure Sound (s : Pool T V) : Prop where
  orderly : s.Orderly
  accounted : s.Accounted
  halted : s.Halted

def init (identity : Identity) (maxQueue : Nat) : Pool T V := { identity, maxQueue }

theorem sound_init (identity : Identity) (maxQueue : Nat) : Sound (T := T) (V := V) (init identity maxQueue) where
  orderly := by
    constructor
    · constructor <;> simp [init]
    · constructor <;> simp [init]
  accounted := by
    constructor
    case places => simp [init, waiting, running, finished]
    all_goals simp [init]
  halted := ⟨fun _ => rfl, by simp [init], by simp [init]⟩

theorem Sound.terminateActive (h : Sound s) (cause : MutationError) : Sound (s.terminateActive cause) :=
  ⟨h.orderly.terminateActive cause, h.accounted.terminateActive cause, h.halted.terminateActive cause⟩

theorem Sound.deadline (h : Sound s) : Sound (s.deadline id) := by
  unfold Pool.deadline
  split
  · split
    · exact h.terminateActive _
    · exact h
  · exact h

theorem Sound.sendFailed {cause : MutationError} (h : Sound s) : Sound (s.sendFailed id cause) := by
  unfold Pool.sendFailed
  split
  · split
    · exact h.terminateActive cause
    · exact h
  · exact h

theorem Sound.abort (h : Sound s) : Sound (s.abort id) := by
  refine ⟨?_, h.accounted.abort, h.halted.abort⟩
  unfold Pool.abort
  split
  · exact h.orderly.of_eq rfl rfl rfl rfl rfl rfl rfl
  · split
    · split
      · exact h.orderly.terminateActive abortedError
      · exact h.orderly
    · exact h.orderly

theorem Sound.handleMessage {m : Message V} {authorized sends : Bool} (h : Sound s)
    (honce : s.answersOnce i m = true) : Sound (s.handleMessage i m authorized sends) := by
  refine ⟨h.orderly.handleMessage honce, ?_, ?_⟩ <;>
    obtain ⟨t, ht, hhandled⟩ := h.orderly.handleMessage_cases authorized sends honce
  · have haccounted : t.Accounted := by
      rcases ht with rfl | ⟨request, rfl⟩
      · exact h.accounted
      · exact h.accounted.mark
    rcases hhandled with heq | ⟨a, answer, ha, hanswer, heq⟩
    · exact heq ▸ haccounted
    · exact heq ▸ haccounted.handleActiveMessage ha hanswer
  · have hhalted : t.Halted := by
      rcases ht with rfl | ⟨request, rfl⟩
      · exact h.halted
      · exact h.halted.mark
    rcases hhandled with heq | ⟨a, answer, ha, -, heq⟩
    · exact heq ▸ hhalted
    · exact heq ▸ hhalted.handleActiveMessage ha

theorem Sound.handleChildError (h : Sound s) (hi : i < s.spawnedChildren) : Sound (s.handleChildError i) := by
  refine ⟨h.orderly.handleChildError hi, ?_, h.halted.handleChildError⟩
  unfold Pool.handleChildError
  split
  · exact h.accounted.terminateActive processError
  split
  · exact h.accounted.same (Quiet.terminateIdleChild i).sameCalls
  · exact h.accounted

/-- A slot whose close is as before is replaced. -/
theorem Sound.setSlot {slot : ChildSlot} (h : Sound s) (hc : slot.closed = (s.slots i).closed)
    (hf : slot.flight = some (.done true) → (s.slots i).flight = some (.done true)) : Sound (s.setSlot i slot) :=
  ⟨h.orderly.setSlot hc hf, h.accounted.same (Quiet.setSlot hc).sameCalls,
    h.halted.quiet (.setSlot hc) fun _ ht => .inl ht⟩

theorem Sound.flightTimeout (h : Sound s) (hs : s.flightTimeout i = some s') : Sound s' := by
  unfold Pool.flightTimeout at hs
  dsimp only at hs
  split at hs
  · cases hs
  · split at hs
    · exact Option.some.inj hs ▸ h.setSlot rfl (fun hf => by cases hf)
    · exact Option.some.inj hs ▸ h.setSlot rfl (fun hf => by cases hf)
    · cases hs

/-- `drain` sends a request only while every earlier one is accepted or its child has closed. -/
theorem Sound.covered_of_sent {input : DrainInput} (h : Sound s) (hsent : (s.drain input).1 = some id) :
    ∀ r ∈ s.sent, r.accepted = true ∨ (s.slots r.slot).closed = true := by
  intro r hr
  generalize hd : s.drain input = d at hsent
  cases hd ▸ drain_cases input s with
  | nothing | idle | failed => cases hsent
  | sent pending queue slot t hqueue hidle hfree hslot =>
    rcases h.orderly.covered r hr with (hacc | hc | ⟨b, hb, -⟩) | ⟨a, ha, -⟩
    · exact .inl hacc
    · exact .inr hc
    · rw [hfree] at hb; cases hb
    · rw [hidle] at ha; cases ha

/-- What one event does: the invariants hold after it, a request is sent only while every earlier one is
covered, and a stop that resolves leaves the pool down. -/
structure Steps (s : Pool T V) (r : Answer × Pool T V) : Prop where
  sound : Sound r.2
  sent : ∀ id, r.1 = .sent id → ∀ q ∈ s.sent, q.accepted = true ∨ (s.slots q.slot).closed = true
  down : r.1 = .stopResolved → r.2.Down

theorem Sound.steps (h : Sound s') : Steps s (.none, s') :=
  ⟨h, by simp, by simp⟩

theorem Sound.drain_steps (h : Sound s) (input : DrainInput) :
    Steps s (match (s.drain input).1 with | some id => .sent id | none => .none, (s.drain input).2) := by
  refine ⟨⟨h.orderly.drain fun p hp r hr hid => ?_, h.accounted.drain, h.halted.drain⟩, fun id hid => ?_,
    fun hdown => ?_⟩
  · exact not_left_of_mem hp (hid ▸ h.accounted.sentLeft r hr)
  · cases hd : (s.drain input).1 with
    | none => rw [hd] at hid; cases hid
    | some n => exact h.covered_of_sent hd
  · cases hd : (s.drain input).1 <;> rw [hd] at hdown <;> cases hdown

theorem Sound.step {checks : Checks T} {e : Event T V} {answer : Answer} (h : Sound s)
    (hs : step checks e s = some (answer, s')) : Steps s (answer, s') := by
  cases e with
  | execute call =>
    obtain ⟨rfl, rfl⟩ := Prod.mk.inj (Option.some.inj hs)
    exact Sound.steps ⟨h.orderly.execute, h.accounted.execute, h.halted.execute⟩
  | drain input =>
    have hsteps := h.drain_steps input
    exact Option.some.inj hs ▸ hsteps
  | abort id => obtain ⟨rfl, rfl⟩ := Prod.mk.inj (Option.some.inj hs); exact h.abort.steps
  | deadline id => obtain ⟨rfl, rfl⟩ := Prod.mk.inj (Option.some.inj hs); exact h.deadline.steps
  | sendFailed id => obtain ⟨rfl, rfl⟩ := Prod.mk.inj (Option.some.inj hs); exact h.sendFailed.steps
  | decisionFailed id => obtain ⟨rfl, rfl⟩ := Prod.mk.inj (Option.some.inj hs); exact h.sendFailed.steps
  | message slot m authorized sends =>
    simp only [StorageMutationPool.step] at hs
    split at hs
    case isTrue hmessage =>
      obtain ⟨rfl, rfl⟩ := Prod.mk.inj (Option.some.inj hs)
      simp only [Bool.and_eq_true, decide_eq_true_eq] at hmessage
      exact (h.handleMessage hmessage.2).steps
    case isFalse => cases hs
  | childError slot =>
    simp only [StorageMutationPool.step] at hs
    split at hs
    case isTrue hslot => obtain ⟨rfl, rfl⟩ := Prod.mk.inj (Option.some.inj hs); exact (h.handleChildError hslot).steps
    case isFalse => cases hs
  | childClose slot code signal =>
    simp only [StorageMutationPool.step] at hs
    split at hs
    case isTrue =>
      obtain ⟨rfl, rfl⟩ := Prod.mk.inj (Option.some.inj hs)
      exact Sound.steps ⟨h.orderly.handleChildClose, h.accounted.handleChildClose, h.halted.handleChildClose⟩
    case isFalse => cases hs
  | diagnostic slot bytes =>
    simp only [StorageMutationPool.step] at hs
    split at hs
    case isTrue => obtain ⟨rfl, rfl⟩ := Prod.mk.inj (Option.some.inj hs); exact Sound.steps (h.setSlot rfl fun hf => hf)
    case isFalse => cases hs
  | flightTimeout slot =>
    obtain ⟨t, ht, heq⟩ := Option.map_eq_some_iff.mp hs
    obtain ⟨rfl, rfl⟩ := Prod.mk.inj heq
    exact (h.flightTimeout ht).steps
  | stop =>
    have hends := h.halted.stop h.orderly
    have horderly := h.orderly.stop
    have haccounted := h.accounted.stop
    rw [Option.some.inj hs] at hends horderly haccounted
    exact ⟨⟨horderly, haccounted, hends.halted⟩, fun id hid => absurd hid (hends.sends id), hends.down⟩
  | resume index =>
    obtain ⟨task, htask, hrest⟩ := Option.bind_eq_some_iff.mp hs
    obtain ⟨confirmed, hconfirmed, heq⟩ := Option.map_eq_some_iff.mp hrest
    have hmem := List.mem_of_getElem? htask
    have htasks : ∀ t ∈ s.tasks.eraseIdx index, t ∈ s.tasks := fun t ht => List.mem_of_mem_eraseIdx ht
    have hends := h.halted.resume h.orderly hmem hconfirmed htasks
    have horderly := h.orderly.resume hmem hconfirmed htasks
    have haccounted : ({ s with tasks := s.tasks.eraseIdx index }.resume task confirmed).2.Accounted :=
      Accounted.resume (h.accounted.same (.of_eq rfl rfl rfl rfl rfl rfl rfl))
    rw [heq] at hends horderly haccounted
    exact ⟨⟨horderly, haccounted, hends.halted⟩, fun id hid => absurd hid (hends.sends id), hends.down⟩

theorem sound_reach {checks : Checks T} {identity : Identity} {maxQueue : Nat}
    (h : (system checks).Reach (init identity maxQueue) s) : Sound s :=
  h.invariant (sound_init identity maxQueue) fun _ _ _ _ hs _ hstep => (hs.step hstep).sound

theorem Pool.Accounted.settled_nodup (h : s.Accounted) : (s.settled.map Prod.fst).Nodup := by
  refine List.nodup_iff_count_le_one.mpr fun n => ?_
  have hn := h.places n
  unfold finished at hn
  split at hn <;> omega

section

def allowAll : Checks Unit where
  canonicalStorageMutationRoleId := pure
  storageMutationRoleDirectory _ := pure ()
  canonicalStorageMutationPlanId := pure
  cloneSerializable := pure

def managerIdentity : Identity := ⟨js "application", js "manager", js "lease"⟩

def roleFence : Fence := ⟨js "application", js "manager", js "lease", js "role", none⟩

def roleCall (key : String) (hasAuthorize : Bool) : Call Unit :=
  ⟨js "role", none, (), js key, none, 1000, hasAuthorize, false, false, true⟩

def roleMessage (key : String) (admissionNonce : Option JsString) (body : Body Nat) : Message Nat :=
  ⟨protocolVersion, js key, some roleFence, admissionNonce, body⟩

end

end RabiRoute.StorageMutationPool
