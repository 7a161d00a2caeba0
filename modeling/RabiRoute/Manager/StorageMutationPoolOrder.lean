import RabiRoute.Manager.StorageMutationPoolChildren

/-!
# The events of the pool and its children

The cases of each event, and that each event keeps `Guarded` and `Awaited`.
-/

open Transitions

namespace RabiRoute.StorageMutationPool

variable {T V : Type} {s s' : Pool T V} {a : ActiveMutation T} {i id : Nat}

namespace Pool

/-! ## What each event does -/

theorem execute_cases (checks : Checks T) (call : Call T) (s : Pool T V) :
    (∃ error, s.execute checks call = { s with calls := s.calls + 1 }.rejectWith s.calls error) ∨
    (s.accepting = true ∧ ∃ pending : PendingMutation T, pending.id = s.calls ∧
      s.execute checks call = { s with calls := s.calls + 1, queue := s.queue ++ [pending] }) := by
  unfold Pool.execute
  dsimp only
  split
  · exact .inl ⟨_, rfl⟩
  case isFalse hopen =>
    simp only [Bool.or_eq_true, Bool.not_eq_true', not_or, Bool.not_eq_false] at hopen
    split
    · exact .inl ⟨_, rfl⟩
    split
    · exact .inl ⟨_, rfl⟩
    split
    · exact .inl ⟨_, rfl⟩
    split
    · exact .inl ⟨_, rfl⟩
    split
    · exact .inl ⟨_, rfl⟩
    · exact .inr ⟨hopen.1.1, _, rfl, rfl⟩

/-- What `drain` does with the first call of the queue: it fails, or its request is sent. -/
inductive Drained (input : DrainInput) (s : Pool T V) : Option Nat × Pool T V → Prop
  | nothing : Drained input s (none, s)
  | idle : s.queue = [] → Drained input s (none, { s with stateValue := .idle })
  | failed (pending : PendingMutation T) (queue : List (PendingMutation T)) (refused : List Nat)
      (error : MutationError) : s.queue = pending :: queue → refused = s.refused ∨
      refused = s.refused ++ [pending.id] →
      Drained input s (none, { s with queue, refused }.rejectPending pending.id error)
  | sent (pending : PendingMutation T) (queue : List (PendingMutation T)) (slot : Nat) (t : Pool T V) :
      s.queue = pending :: queue → s.active = none → s.blockedSlot = none →
      { s with queue }.useChildSlot input.spawned = some (slot, t) →
      Drained input s (some pending.id, t.dispatch pending slot input)

theorem drain_cases (input : DrainInput) (s : Pool T V) : Drained input s (s.drain input) := by
  unfold Pool.drain
  split
  · exact .nothing
  case isFalse hfree =>
    simp only [Bool.or_eq_true, Bool.not_eq_true', not_or, Bool.not_eq_false, Option.isSome_iff_ne_none,
      ne_eq, Decidable.not_not, decide_eq_true_eq] at hfree
    split
    · case h_1 hqueue => exact .idle hqueue
    case h_2 pending queue hqueue =>
      dsimp only
      split
      · exact .failed pending queue _ _ hqueue (.inl rfl)
      split
      · exact .failed pending queue _ _ hqueue (.inr rfl)
      split
      · exact .failed pending queue _ _ hqueue (.inl rfl)
      case h_2 slot t hslot => exact .sent pending queue slot t hqueue hfree.1.1.1.2 hfree.1.1.2 hslot

theorem useChildSlot_cases {spawned : Option (Option Nat)} {t : Pool T V}
    (h : s.useChildSlot spawned = some (i, t)) :
    (t = s ∧ s.childSlot = some i ∧ (s.slots i).closed = false) ∨
    (i = s.spawnedChildren ∧ (∀ j, s.childSlot = some j → (s.slots j).closed = true) ∧
      ∃ pid, t = { s.setSlot s.spawnedChildren { pid } with
        childSlot := some s.spawnedChildren
        spawnedChildren := s.spawnedChildren + 1 }) := by
  unfold Pool.useChildSlot at h
  split at h
  case h_1 j hj =>
    simp only [Option.some.injEq, Prod.mk.injEq] at h
    obtain ⟨hchild, hopen⟩ := Option.filter_eq_some_iff.mp hj
    rw [h.1] at hchild hopen
    exact .inl ⟨h.2.symm, hchild, by simpa using hopen⟩
  case h_2 hnone =>
    obtain ⟨pid, -, hpid⟩ := Option.map_eq_some_iff.mp h
    simp only [Prod.mk.injEq] at hpid
    refine .inr ⟨hpid.1.symm, fun j hj => ?_, pid, hpid.2.symm⟩
    simpa [hj] using hnone

/-- What a message does: it stays without effect on the mutation, fails it, decides its admission, or
is accepted as its result. -/
inductive Handled (a : ActiveMutation T) (m : Message V) (answer : Option Nat) (s : Pool T V) :
    Pool T V → Prop
  | nothing : Handled a m answer s s
  | terminated (cause : MutationError) : Handled a m answer s (s.terminateActive cause)
  | admitted (allowed sends : Bool) (t : Pool T V) : a.admission = none →
      t = { s with
        active := some { a with
          admission := some (if allowed then .allowed else .denied)
          listening := !allowed && a.listening }
        refused := if allowed then s.refused else s.refused ++ [a.pending.id]
        decisions := s.decisions ++ [(a.pending.id, allowed)] } →
      Handled a m answer s (if sends then t else t.terminateActive decisionError)
  | accepted (result : Except MutationError V) : m.isFor a.request = true → m.body.isAdmission = false →
      Handled a m answer s (s.acceptAnswer a.pending.id result answer)

theorem handleActiveMessage_cases (a : ActiveMutation T) (m : Message V) (answer : Option Nat) (authorized sends : Bool)
    (s : Pool T V) : Handled a m answer s (s.handleActiveMessage a m answer authorized sends) := by
  unfold Pool.handleActiveMessage
  dsimp only
  split
  · exact .terminated _
  case isFalse hfor =>
    have hfor : m.isFor a.request = true := by simpa using hfor
    split
    case h_1 =>
      split
      · exact .terminated _
      case isFalse hfirst =>
        simp only [Bool.or_eq_true, not_or, Option.isSome_iff_ne_none, ne_eq, Decidable.not_not] at hfirst
        exact .admitted authorized sends _ hfirst.2 rfl
    case h_2 hbody =>
      have hbody : m.body.isAdmission = false := by
        cases hm : m.body with
        | admission isRequest commitAdmission sequence => exact absurd hm (hbody _ _ _)
        | ok | failed | other => rfl
      split
      · split
        · split
          · exact .accepted _ hfor hbody
          · exact .terminated _
        · exact .terminated _
      · split
        · exact .accepted _ hfor hbody
        · exact .nothing
        · split
          · exact .accepted _ hfor hbody
          · exact .terminated _
        · exact .terminated _

/-- A response for the active mutation answers its own request. -/
theorem Guarded.answer_own {m : Message V} (hg : s.Guarded) (ha : s.active = some a) (hfor : m.isFor a.request = true)
    (hbody : m.body.isAdmission = false) (honce : s.answersOnce a.slot m = true) : (s.unanswered a.slot m).map Sent.id =
    some a.pending.id := by
  cases hr : s.unanswered a.slot m with
  | some r =>
    have hfound := List.find?_some hr
    simp only [Bool.and_eq_true, decide_eq_true_eq, Bool.not_eq_true'] at hfound
    exact congrArg some (hg.own a ha r (List.mem_of_find?_eq_some hr) hfound.1.1 hfound.1.2)
  | none =>
    obtain ⟨r, hr', -, hslot, hrequest⟩ := hg.activeSent a ha
    simp only [answersOnce, hbody, hr, Option.isSome_none, Bool.or_self, Bool.false_or, List.all_eq_true,
      Bool.not_eq_true', Bool.and_eq_false_imp, decide_eq_true_eq] at honce
    have hnot := honce r hr' hslot
    rw [hrequest, hfor] at hnot
    cases hnot

/-! ## Requests, children and terminations together -/

structure Orderly (s : Pool T V) : Prop extends Guarded s, Awaited s

theorem Orderly.same (h : s.Orderly) (hs : SameChildren s s') (htasks : s'.tasks = s.tasks)
    (hslots : s'.slots = s.slots) : s'.Orderly :=
  ⟨h.toGuarded.same hs, h.toAwaited.same htasks hslots hs.spawnedChildren (.of_eq hs.sent)⟩

theorem Orderly.of_eq (h : s.Orderly) (hsent : s'.sent = s.sent) (hblocked : s'.blockedSlot = s.blockedSlot) (hchild :
    s'.childSlot = s.childSlot) (hspawned : s'.spawnedChildren = s.spawnedChildren) (hslots : s'.slots = s.slots)
    (hactive : s'.active = s.active) (htasks : s'.tasks = s.tasks) : s'.Orderly :=
  h.same (.of_eq hsent hblocked hchild hspawned hslots hactive) htasks hslots

theorem Orderly.terminateActive (h : s.Orderly) (cause : MutationError) : (s.terminateActive cause).Orderly :=
  ⟨h.toGuarded.same (Quiet.terminateActive cause).toSameChildren, h.toAwaited.terminateActive h.toGuarded cause⟩

theorem Orderly.await (task : Task) (h : s.Orderly) (hslot : task.slot < s.spawnedChildren)
    (hknown : task.known = (s.terminateAndConfirm task.slot).1)
    (hcall : ∀ id, task.call = some id →
      (∃ r ∈ s.sent, r.id = id) ∧ ∀ r ∈ s.sent, r.id = id → r.slot = task.slot) :
    { (s.terminateAndConfirm task.slot).2 with
      tasks := (s.terminateAndConfirm task.slot).2.tasks ++ [task] }.Orderly :=
  ⟨h.toGuarded.same ((Quiet.terminateAndConfirm _).trans (.tasks _)).toSameChildren,
    Awaited.await task h.toAwaited hslot hknown hcall⟩

theorem Orderly.settleActive {outcome : Outcome V} (h : s.Orderly)
    (hcovered : ∀ r ∈ s.sent, r.id = id → Covered s r) : (s.settleActive id outcome).Orderly := by
  refine ⟨h.toGuarded.settleActive hcovered, h.toAwaited.same ?_ ?_ ?_ (.of_eq ?_)⟩ <;>
  · unfold Pool.settleActive
    split
    · rfl
    · split <;> rfl

theorem Orderly.mark (h : s.Orderly) (accepted : Bool) : (s.mark id accepted).Orderly := by
  refine ⟨h.toGuarded.mark, h.toAwaited.same rfl rfl rfl ⟨fun q hq => ?_, fun r hr => ?_⟩⟩
  · obtain ⟨r, hr, hid, -⟩ := exists_sent_mark accepted hq
    exact ⟨r, hr, hid⟩
  · obtain ⟨q, hq, hid, hslot, -⟩ := mem_sent_mark hr
    exact .inl ⟨q, hq, hid.symm, hslot.symm⟩

theorem Orderly.execute {checks : Checks T} {call : Call T} (h : s.Orderly) : (s.execute checks call).Orderly := by
  rcases execute_cases checks call s with ⟨error, heq⟩ | ⟨-, pending, -, heq⟩ <;> rw [heq]
  · exact h.of_eq rfl rfl rfl rfl rfl rfl rfl
  · exact h.of_eq rfl rfl rfl rfl rfl rfl rfl

/-- Without a child that lives or a request that is active, the child for the next request is the only
one that lives. -/
theorem Orderly.dispatch {pending : PendingMutation T} {input : DrainInput} {spawned : Option (Option Nat)} {t : Pool T
    V} (h : s.Orderly) (hidle : s.active = none) (hfree : s.blockedSlot = none) (hfresh : ∀ r ∈ s.sent, r.id ≠
    pending.id) (hslot : s.useChildSlot spawned = some (i, t)) : (t.dispatch pending i input).Orderly := by
  have hlive : ∀ j < s.spawnedChildren, (s.slots j).closed = false → s.childSlot = some j := fun j hj hc => by
    rcases h.live j hj hc with hchild | ⟨b, hb, -⟩
    · exact hchild
    · rw [hfree] at hb; cases hb
  suffices hsend : ({ t with
      active := some {
        slot := i, pending, request := t.requestOf pending input.nonce, listening := pending.hasSignal }
      stateValue := .running
      sent := t.sent ++ [{ id := pending.id, slot := i, request := t.requestOf pending input.nonce }] } :
        Pool T V).Orderly by
    unfold Pool.dispatch
    dsimp only
    split
    · exact hsend
    · exact hsend.terminateActive sendError
  have hgrows : ∀ request, ∀ r ∈ s.sent ++ [{ id := pending.id, slot := i, request }],
      (∃ q ∈ s.sent, q.id = r.id ∧ q.slot = r.slot) ∨ ∀ q ∈ s.sent, q.id ≠ r.id := fun request r hr => by
    rcases List.mem_append.mp hr with hold | hnew
    · exact .inl ⟨r, hold, rfl, rfl⟩
    · obtain rfl := List.mem_singleton.mp hnew
      exact .inr hfresh
  rcases useChildSlot_cases hslot with ⟨rfl, hchild, hopen⟩ | ⟨rfl, hnone, pid, rfl⟩
  · refine ⟨h.toGuarded.send hidle hfree (fun _ _ => rfl) rfl hfresh rfl hchild hfree (h.spawned i hchild) hopen
      (.inl rfl), ?_⟩
    exact h.toAwaited.mono (fun _ ht => ht) (Nat.le_refl _) (fun _ _ hc => hc) h.flights
      ⟨fun q hq => ⟨q, List.mem_append_left _ hq, rfl⟩, hgrows _⟩
  · have hkeep : ∀ j < s.spawnedChildren,
        Function.update s.slots s.spawnedChildren { pid } j = s.slots j := fun j hj =>
      Function.update_of_ne (Nat.ne_of_lt hj) _ _
    refine ⟨h.toGuarded.send hidle hfree (fun j hj => congrArg ChildSlot.closed (hkeep j hj)) rfl hfresh rfl rfl hfree
      (Nat.lt_succ_self _) (by simp [setSlot]) (.inr ⟨rfl, rfl, fun j hj => ?_⟩), ?_⟩
    · cases hc : (s.slots j).closed with
      | true => rfl
      | false => exact absurd (hnone j (hlive j hj hc)) (by simp [hc])
    · refine h.toAwaited.mono (fun _ ht => ht) (Nat.le_succ _) (fun j hj hc => ?_) (fun j hj => ?_)
        ⟨fun q hq => ⟨q, List.mem_append_left _ hq, rfl⟩, hgrows _⟩
      · exact (congrArg ChildSlot.closed (hkeep j hj)).trans hc
      · change (Function.update s.slots s.spawnedChildren { pid } j).flight = _ at hj
        show (Function.update s.slots s.spawnedChildren { pid } j).closed = true
        by_cases hjs : j = s.spawnedChildren
        · rw [hjs, Function.update_self] at hj; cases hj
        · rw [Function.update_of_ne hjs] at hj ⊢; exact h.flights j hj

theorem Orderly.drain {input : DrainInput} (h : s.Orderly)
    (hfresh : ∀ pending ∈ s.queue, ∀ r ∈ s.sent, r.id ≠ pending.id) : (s.drain input).2.Orderly := by
  generalize hd : s.drain input = d
  cases hd ▸ drain_cases input s with
  | nothing => exact h
  | idle => exact h.of_eq rfl rfl rfl rfl rfl rfl rfl
  | failed pending queue refused error hqueue => exact h.of_eq rfl rfl rfl rfl rfl rfl rfl
  | sent pending queue slot t hqueue hidle hfree hslot =>
    have hq : ({ s with queue } : Pool T V).Orderly := h.of_eq rfl rfl rfl rfl rfl rfl rfl
    exact hq.dispatch hidle hfree (hfresh pending (hqueue ▸ List.mem_cons_self)) hslot

theorem Orderly.acceptAnswer {result : Except MutationError V} (h : s.Orderly) :
    (s.acceptAnswer id result (some id)).Orderly := by
  refine Orderly.settleActive (h.mark true) fun r hr hid => ?_
  obtain ⟨q, -, -, -, -, -, -, -, hmarked⟩ := mem_sent_mark hr
  exact .inl ((hmarked hid).2 rfl)

theorem Orderly.handleActiveMessage {m : Message V} {answer : Option Nat} {authorized sends : Bool} (h : s.Orderly) (ha
    : s.active = some a) (hanswer : m.isFor a.request = true → m.body.isAdmission = false → answer = some a.pending.id)
    : (s.handleActiveMessage a m answer authorized sends).Orderly := by
  generalize hd : s.handleActiveMessage a m answer authorized sends = d
  cases hd ▸ handleActiveMessage_cases a m answer authorized sends s with
  | nothing => exact h
  | terminated cause => exact h.terminateActive cause
  | admitted allowed sends t hnone ht =>
    have hadmitted : t.Orderly := by
      refine h.same ⟨?_, ?_, ?_, ?_, fun i => ?_, fun b hb => ⟨a, ha, ?_⟩, fun hb => ?_⟩ ?_ ?_ <;> subst ht
      any_goals rfl
      · obtain rfl := Option.some.inj hb
        exact ⟨rfl, rfl, rfl⟩
      · cases hb
    split
    · exact hadmitted
    · exact hadmitted.terminateActive decisionError
  | accepted result hfor hbody =>
    rw [hanswer hfor hbody]
    exact h.acceptAnswer

theorem handleMessage_eq {m : Message V} {authorized sends : Bool} {answer : Option Nat}
    (h : (if m.body.isAdmission then none else (s.unanswered i m).map Sent.id) = answer) :
    s.handleMessage i m authorized sends =
      let t := match answer with
        | some request => s.mark request false
        | none => s
      match t.active with
      | none => t
      | some active =>
        if active.slot ≠ i || active.terminating then t
        else t.handleActiveMessage active m answer authorized sends := by
  subst h
  rfl

/-- A message marks the request that it answers, and is handled for the active mutation of its child. -/
theorem Guarded.handleMessage_cases {m : Message V} (hg : s.Guarded) (authorized sends : Bool)
    (honce : s.answersOnce i m = true) : ∃ t, (t = s ∨ ∃ request, t = s.mark request false) ∧
      (s.handleMessage i m authorized sends = t ∨ ∃ a answer, t.active = some a ∧
        (m.isFor a.request = true → m.body.isAdmission = false → answer = some a.pending.id) ∧
        s.handleMessage i m authorized sends = t.handleActiveMessage a m answer authorized sends) := by
  have hactive : ∀ answer (t : Pool T V), t.active = s.active →
      (m.body.isAdmission = false → answer = (s.unanswered i m).map Sent.id) →
      ∀ u, u = (match t.active with
        | none => t
        | some active =>
          if active.slot ≠ i || active.terminating then t
          else t.handleActiveMessage active m answer authorized sends) →
      u = t ∨ ∃ a answer, t.active = some a ∧
        (m.isFor a.request = true → m.body.isAdmission = false → answer = some a.pending.id) ∧
        u = t.handleActiveMessage a m answer authorized sends := by
    intro answer t hsame hanswer u hu
    split at hu
    · exact .inl hu
    case h_2 b hb =>
      split at hu
      · exact .inl hu
      case isFalse hmine =>
        simp only [Bool.or_eq_true, decide_eq_true_eq, ne_eq, not_or, Decidable.not_not] at hmine
        refine .inr ⟨b, answer, hb, fun hfor hbody => (hanswer hbody).trans ?_, hu⟩
        have hown := hg.answer_own (hsame.symm.trans hb) hfor hbody (hmine.1 ▸ honce)
        rwa [hmine.1] at hown
  by_cases hbody : m.body.isAdmission = true
  · refine ⟨s, .inl rfl, hactive none s rfl (fun hnot => by rw [hbody] at hnot; cases hnot) _ ?_⟩
    exact handleMessage_eq (if_pos hbody)
  · cases hr : s.unanswered i m with
    | none =>
      refine ⟨s, .inl rfl, hactive none s rfl (fun _ => by rw [hr]; rfl) _ ?_⟩
      exact handleMessage_eq ((if_neg hbody).trans (congrArg (Option.map Sent.id) hr))
    | some r =>
      refine ⟨s.mark r.id false, .inr ⟨r.id, rfl⟩,
        hactive (some r.id) (s.mark r.id false) rfl (fun _ => by rw [hr]; rfl) _ ?_⟩
      exact handleMessage_eq ((if_neg hbody).trans (congrArg (Option.map Sent.id) hr))

theorem Orderly.handleMessage {m : Message V} {authorized sends : Bool} (h : s.Orderly)
    (honce : s.answersOnce i m = true) : (s.handleMessage i m authorized sends).Orderly := by
  obtain ⟨t, ht, hhandled⟩ := h.handleMessage_cases authorized sends honce
  have horderly : t.Orderly := by
    rcases ht with rfl | ⟨request, rfl⟩
    · exact h
    · exact h.mark _
  rcases hhandled with heq | ⟨a, answer, ha, hanswer, heq⟩
  · exact heq ▸ horderly
  · exact heq ▸ horderly.handleActiveMessage ha hanswer

theorem Orderly.terminateIdleChild (h : s.Orderly) (hi : i < s.spawnedChildren) : (s.terminateIdleChild i).Orderly :=
  Orderly.await (.terminateIdle i (s.terminateAndConfirm i).1) h hi rfl fun _ hid => by cases hid

theorem Orderly.handleChildError (h : s.Orderly) (hi : i < s.spawnedChildren) : (s.handleChildError i).Orderly := by
  unfold Pool.handleChildError
  split
  · exact h.terminateActive processError
  split
  · exact h.terminateIdleChild hi
  · exact h

theorem Orderly.handleChildClose {code : Option Nat} {signal : Option JsString} (h : s.Orderly) :
    (s.handleChildClose i code signal).Orderly := by
  refine ⟨h.toGuarded.handleChildClose, ?_⟩
  unfold Pool.handleChildClose
  dsimp only
  split
  · exact h.toAwaited
  have hclosed : (s.closeSlot i).Awaited := by
    refine h.toAwaited.mono (fun _ ht => ht) (Nat.le_refl _) (fun j _ hc => ?_) (fun j hj => ?_) (.of_eq rfl)
    · rw [closed_closeSlot]
      split
      · rfl
      · exact hc
    · rw [closed_closeSlot]
      split
      · rfl
      case isFalse hji =>
        unfold Pool.closeSlot setSlot at hj
        simp only [Function.update_of_ne hji] at hj
        exact h.flights j hj
  generalize exitedError code signal (s.slots i).diagnosticBytes = error
  refine Awaited.same (s := (s.closeSlot i).exitActive i error) ?_ ?_ ?_ ?_ (.of_eq ?_)
  · unfold exitActive
    split
    · split
      · refine hclosed.same ?_ ?_ ?_ (.of_eq ?_) <;>
        · unfold Pool.settleActive
          split
          · rfl
          · split <;> rfl
      · exact hclosed
    · exact hclosed
  all_goals
    unfold becomeIdle
    split <;> rfl

theorem Orderly.setSlot {slot : ChildSlot} (h : s.Orderly) (hc : slot.closed = (s.slots i).closed) (hf : slot.flight =
    some (.done true) → (s.slots i).flight = some (.done true)) : (s.setSlot i slot).Orderly := by
  have hquiet := Quiet.setSlot (s := s) hc
  refine ⟨h.toGuarded.same hquiet.toSameChildren, h.toAwaited.mono (fun _ ht => ht) (Nat.le_refl _)
    (fun j _ hj => (hquiet.closed j).trans hj) (fun j hj => ?_) (.of_eq rfl)⟩
  rw [hquiet.closed]
  change (Function.update s.slots i slot j).flight = _ at hj
  by_cases hji : j = i
  · rw [hji, Function.update_self] at hj
    exact hji ▸ h.flights i (hf hj)
  · rw [Function.update_of_ne hji] at hj
    exact h.flights j hj

theorem Orderly.blockTermination (h : s.Orderly) (hi : i < s.spawnedChildren) : (s.blockTermination i).Orderly :=
  ⟨h.toGuarded.blockTermination hi, h.toAwaited.same rfl rfl rfl (.of_eq rfl)⟩

theorem Orderly.stopFails (h : s.Orderly) : s.stopFails.2.Orderly := h.of_eq rfl rfl rfl rfl rfl rfl rfl

theorem Orderly.stopEnd (h : s.Orderly) : s.stopEnd.2.Orderly := by
  unfold Pool.stopEnd
  split
  · exact h.stopFails
  · exact h.of_eq rfl rfl rfl rfl rfl rfl rfl

theorem Orderly.stopChildren (h : s.Orderly) : s.stopChildren.2.Orderly := by
  unfold Pool.stopChildren
  split
  case h_1 j hj =>
    have hspawned : j < s.spawnedChildren := by
      rcases Option.or_eq_some_iff.mp (Option.filter_eq_some_iff.mp hj).1 with hblocked | ⟨-, hchild⟩
      · exact h.blockedSpawned j hblocked
      · exact h.spawned j hchild
    exact Orderly.await (.stopChild j (s.terminateAndConfirm j).1) h hspawned rfl fun _ hid => by cases hid
  · exact h.stopEnd

theorem Orderly.stop (h : s.Orderly) : s.stop.2.Orderly := by
  unfold Pool.stop
  split
  · exact h
  split
  · exact h
  have hstopping : ({ s with accepting := false, stateValue := .stopping, stopFlight := true }.rejectQueue
      poolStoppedError : Pool T V).Orderly := h.of_eq rfl rfl rfl rfl rfl rfl rfl
  dsimp only
  generalize rejectQueue poolStoppedError _ = t at hstopping ⊢
  split
  case h_1 b hb =>
    refine Orderly.await (.stopActive b.pending.id b.slot _)
      (hstopping.same (Quiet.marks _ _ hb).toSameChildren rfl rfl) (hstopping.activeSpawned hb) rfl fun id hid => ?_
    obtain rfl := Option.some.inj hid
    obtain ⟨r, hr, hid, -⟩ := hstopping.activeSent b hb
    exact ⟨⟨r, hr, hid⟩, hstopping.activeSlot b hb⟩
  · exact hstopping.stopChildren

theorem closed_of_confirmation {task : Task} (h : s.Orderly) (hmem : task ∈ s.tasks)
    (hconfirmed : s.confirmation task = some true) : (s.slots task.slot).closed = true := by
  unfold confirmation at hconfirmed
  split at hconfirmed
  case h_1 b hknown => exact (h.known task hmem b hknown).2
  case h_2 b hflight => exact h.flights task.slot (Option.some.inj hconfirmed ▸ hflight)
  case h_3 => cases hconfirmed

/-- What follows a termination may settle the mutation of the child: its close was observed, or the
pool is blocked until it is. -/
theorem Orderly.resume {task : Task} {confirmed : Bool} {tasks : List Task} (h : s.Orderly)
    (hmem : task ∈ s.tasks) (hconfirmed : s.confirmation task = some confirmed)
    (htasks : ∀ t ∈ tasks, t ∈ s.tasks) : ({ s with tasks }.resume task confirmed).2.Orderly := by
  have ht : ({ s with tasks } : Pool T V).Orderly :=
    ⟨h.toGuarded.same (.of_eq rfl rfl rfl rfl rfl rfl),
      h.toAwaited.mono htasks (Nat.le_refl _) (fun _ _ hc => hc) h.flights (.of_eq rfl)⟩
  have hspawned := h.tasksSpawned task hmem
  have hown : ∀ id, task.call = some id → ∀ r ∈ s.sent, r.id = id → r.slot = task.slot := fun id hid =>
    (h.requests task hmem id hid).2
  have hconfirm : ∀ id outcome, task.call = some id → s.confirmation task = some true →
      ({ s with tasks }.settleActive id outcome : Pool T V).Orderly := fun id outcome hid hyes =>
    ht.settleActive fun r hr hrid => by
      have hclosed := closed_of_confirmation h hmem hyes
      rw [← hown id hid r hr hrid] at hclosed
      exact .inr (.inl hclosed)
  have hblock : ∀ id outcome, task.call = some id →
      (({ s with tasks }.blockTermination task.slot).settleActive id outcome : Pool T V).Orderly :=
    fun id outcome hid =>
      (ht.blockTermination hspawned).settleActive fun r hr hrid => blockTermination_covers (hown id hid r hr hrid)
  unfold Pool.resume
  cases task <;> cases confirmed <;> dsimp only
  case terminateActive.true id slot cause known => exact hconfirm id _ rfl hconfirmed
  case terminateActive.false id slot cause known =>
    exact (hblock id _ rfl).of_eq rfl rfl rfl rfl rfl rfl rfl
  case terminateIdle.true slot known => exact ht
  case terminateIdle.false slot known => exact (ht.blockTermination hspawned).of_eq rfl rfl rfl rfl rfl rfl rfl
  case stopActive.true id slot known => exact (hconfirm id _ rfl hconfirmed).stopChildren
  case stopActive.false id slot known => exact (hblock id _ rfl).stopFails
  case stopChild.true slot known => exact ht.stopEnd
  case stopChild.false slot known => exact (ht.blockTermination hspawned).stopFails

end Pool

end RabiRoute.StorageMutationPool
