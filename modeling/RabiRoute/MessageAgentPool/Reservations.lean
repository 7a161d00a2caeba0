import RabiRoute.MessageAgentPool.Pool

/-!
# Reservations of workers

The ids that are reserved are those of the workers that the calls in flight hold, as long as no such worker
gets a new id, no two calls that end hold one id, and no allocation fails after its reservation.
-/

open Transitions

namespace RabiRoute.MessageAgents.MessageAgentPool

variable {Thread : Type} [DecidableEq Thread] {pool pool' : MessageAgentPool Thread} {call worker : Nat} {id : Thread}

/-- The call has allocated the worker and not settled. -/
def Holds (pool : MessageAgentPool Thread) (call worker : Nat) (shouldInitialize : Bool) : Prop :=
  (pool.calls call).held = some (worker, shouldInitialize)

/-- Every call in flight has its worker's id reserved, and no other id is reserved. -/
structure Reserved (pool : MessageAgentPool Thread) : Prop where
  reserved : ∀ id, id ∈ pool.reservedWorkerIds ↔
    ∃ call worker shouldInitialize, pool.Holds call worker shouldInitialize ∧ pool.threadOf worker = some id
  initializing : ∀ id, id ∈ pool.initializingWorkerIds ↔
    ∃ call worker, pool.Holds call worker true ∧ pool.threadOf worker = some id
  present : ∀ call worker shouldInitialize, pool.Holds call worker shouldInitialize → (pool.threadOf worker).isSome

/-! ## Sets of ids -/

theorem mem_addId {ids : List Thread} {other : Thread} : other ∈ addId id ids ↔ other ∈ ids ∨ other = id := by
  unfold addId
  split
  · rename_i hmem
    constructor
    · exact Or.inl
    · intro hor
      cases hor with
      | inl h => exact h
      | inr h => exact h ▸ hmem
  · simp

theorem mem_deleteId {ids : List Thread} {other : Option Thread} :
    id ∈ deleteId other ids ↔ id ∈ ids ∧ some id ≠ other := by
  unfold deleteId
  simp

/-! ## Calls -/

section

omit [DecidableEq Thread]

theorem setCall_self {state : DeliverCall Thread} : (pool.setCall call state).calls call = state := by
  unfold setCall
  simp

theorem setCall_ne {state : DeliverCall Thread} {other : Nat} (h : other ≠ call) :
    (pool.setCall call state).calls other = pool.calls other := by
  unfold setCall
  simp [h]

/-- A step that touches neither the sets of ids nor the calls and workers in flight. -/
theorem Reserved.congr (h : Reserved pool) (hreserved : pool'.reservedWorkerIds = pool.reservedWorkerIds)
    (hinitializing : pool'.initializingWorkerIds = pool.initializingWorkerIds)
    (hheld : ∀ call, (pool'.calls call).held = (pool.calls call).held)
    (hthread : ∀ call worker shouldInitialize, pool.Holds call worker shouldInitialize →
      pool'.threadOf worker = pool.threadOf worker) : Reserved pool' := by
  have hholds : ∀ call worker shouldInitialize,
      pool'.Holds call worker shouldInitialize ↔ pool.Holds call worker shouldInitialize := by
    intro call worker shouldInitialize
    unfold Holds
    rw [hheld]
  have hid : ∀ call worker shouldInitialize id,
      pool'.Holds call worker shouldInitialize ∧ pool'.threadOf worker = some id ↔
        pool.Holds call worker shouldInitialize ∧ pool.threadOf worker = some id := by
    intro call worker shouldInitialize id
    rw [hholds]
    apply and_congr_right
    intro hin
    rw [hthread _ _ _ hin]
  constructor
  · intro id
    simp only [hid, hreserved, h.reserved]
  · intro id
    simp only [hid, hinitializing, h.initializing]
  · intro call worker shouldInitialize hin
    have hin' := (hholds _ _ _).mp hin
    rw [hthread _ _ _ hin']
    exact h.present _ _ _ hin'

/-- The workers that calls in flight hold keep their ids. -/
theorem Reserved.changeWorkers (h : Reserved pool) (workers : List (MessageAgentWorker Thread))
    (hthread : ∀ call worker shouldInitialize, pool.Holds call worker shouldInitialize →
      workers[worker]?.map MessageAgentWorker.threadId = pool.threadOf worker) :
    Reserved { pool with workers } := by
  apply Reserved.congr h
  · rfl
  · rfl
  · exact fun _ => rfl
  · exact hthread

/-- A call that holds no worker takes one. -/
theorem Reserved.take (h : Reserved pool) (shouldInitialize : Bool) (hcall : (pool.calls call).held = none)
    (hthread : pool.threadOf worker = some id)
    (hreserved : ∀ other, other ∈ pool'.reservedWorkerIds ↔ other ∈ pool.reservedWorkerIds ∨ other = id)
    (hinitializing : ∀ other, other ∈ pool'.initializingWorkerIds ↔
      other ∈ pool.initializingWorkerIds ∨ (shouldInitialize = true ∧ other = id))
    (hself : pool'.Holds call worker shouldInitialize)
    (hothers : ∀ other, other ≠ call → pool'.calls other = pool.calls other)
    (hthreads : ∀ worker, pool'.threadOf worker = pool.threadOf worker) : Reserved pool' := by
  have hnone : ∀ worker shouldInitialize, ¬pool.Holds call worker shouldInitialize := by
    intro worker shouldInitialize hin
    unfold Holds at hin
    rw [hcall] at hin
    cases hin
  have hkeep : ∀ other worker shouldInitialize, pool.Holds other worker shouldInitialize →
      pool'.Holds other worker shouldInitialize := by
    intro other worker shouldInitialize hin
    have hne : other ≠ call := fun heq => hnone _ _ (heq ▸ hin)
    unfold Holds
    rw [hothers other hne]
    exact hin
  have hback : ∀ other worker' initialize', pool'.Holds other worker' initialize' →
      pool.Holds other worker' initialize' ∨ (worker' = worker ∧ initialize' = shouldInitialize) := by
    intro other worker' initialize' hin
    by_cases heq : other = call
    · rw [heq] at hin
      have hsame := hself.symm.trans hin
      cases hsame
      exact Or.inr ⟨rfl, rfl⟩
    · unfold Holds at hin
      rw [hothers other heq] at hin
      exact Or.inl hin
  constructor
  · intro other
    rw [hreserved, h.reserved]
    constructor
    · intro hor
      cases hor with
      | inl hin =>
        obtain ⟨c, w, i, hheld, hid⟩ := hin
        exact ⟨c, w, i, hkeep _ _ _ hheld, (hthreads w).trans hid⟩
      | inr heq => exact ⟨call, worker, shouldInitialize, hself, by rw [hthreads, hthread, heq]⟩
    · intro hin
      obtain ⟨c, w, i, hheld, hid⟩ := hin
      rw [hthreads] at hid
      cases hback _ _ _ hheld with
      | inl hold => exact Or.inl ⟨c, w, i, hold, hid⟩
      | inr hnew =>
        rw [hnew.1, hthread] at hid
        exact Or.inr (Option.some.inj hid).symm
  · intro other
    rw [hinitializing, h.initializing]
    constructor
    · intro hor
      cases hor with
      | inl hin =>
        obtain ⟨c, w, hheld, hid⟩ := hin
        exact ⟨c, w, hkeep _ _ _ hheld, (hthreads w).trans hid⟩
      | inr heq => exact ⟨call, worker, heq.1 ▸ hself, by rw [hthreads, hthread, heq.2]⟩
    · intro hin
      obtain ⟨c, w, hheld, hid⟩ := hin
      rw [hthreads] at hid
      cases hback _ _ _ hheld with
      | inl hold => exact Or.inl ⟨c, w, hold, hid⟩
      | inr hnew =>
        rw [hnew.1, hthread] at hid
        exact Or.inr ⟨hnew.2.symm, (Option.some.inj hid).symm⟩
  · intro c w i hin
    rw [hthreads]
    cases hback _ _ _ hin with
    | inl hold => exact h.present _ _ _ hold
    | inr hnew => rw [hnew.1, hthread]; rfl

/-- No other call in flight has the id of the worker that this call holds. -/
def Alone (pool : MessageAgentPool Thread) (call : Nat) : Prop :=
  ∀ worker shouldInitialize other worker' initialize', pool.Holds call worker shouldInitialize →
    pool.Holds other worker' initialize' → other ≠ call → pool.threadOf worker' ≠ pool.threadOf worker

/-- A call gives its worker back. -/
theorem Reserved.giveBack {shouldInitialize : Bool} (h : Reserved pool)
    (hcall : pool.Holds call worker shouldInitialize) (halone : pool.Alone call)
    (hreserved : ∀ id, id ∈ pool'.reservedWorkerIds ↔ id ∈ pool.reservedWorkerIds ∧ some id ≠ pool.threadOf worker)
    (hinitializing : ∀ id, id ∈ pool'.initializingWorkerIds ↔
      id ∈ pool.initializingWorkerIds ∧ (shouldInitialize = true → some id ≠ pool.threadOf worker))
    (hself : (pool'.calls call).held = none)
    (hothers : ∀ other, other ≠ call → pool'.calls other = pool.calls other)
    (hthreads : ∀ worker, pool'.threadOf worker = pool.threadOf worker) : Reserved pool' := by
  have hholds : ∀ other worker' initialize', pool'.Holds other worker' initialize' ↔
      pool.Holds other worker' initialize' ∧ other ≠ call := by
    intro other worker' initialize'
    by_cases heq : other = call
    · unfold Holds
      rw [heq, hself]
      simp
    · unfold Holds
      rw [hothers other heq]
      simp [heq]
  have hsame : ∀ worker' initialize', pool.Holds call worker' initialize' →
      worker' = worker ∧ initialize' = shouldInitialize := by
    intro worker' initialize' hin
    have heq := hcall.symm.trans hin
    cases heq
    exact ⟨rfl, rfl⟩
  constructor
  · intro id
    rw [hreserved, h.reserved]
    constructor
    · intro hin
      obtain ⟨⟨c, w, i, hheld, hid⟩, hne⟩ := hin
      refine ⟨c, w, i, (hholds _ _ _).mpr ⟨hheld, ?_⟩, (hthreads w).trans hid⟩
      intro heq
      rw [heq] at hheld
      rw [(hsame _ _ hheld).1] at hid
      exact hne hid.symm
    · intro hin
      obtain ⟨c, w, i, hheld, hid⟩ := hin
      rw [hthreads] at hid
      have hold := (hholds _ _ _).mp hheld
      refine ⟨⟨c, w, i, hold.1, hid⟩, ?_⟩
      rw [← hid]
      exact halone _ _ _ _ _ hcall hold.1 hold.2
  · intro id
    rw [hinitializing, h.initializing]
    constructor
    · intro hin
      obtain ⟨⟨c, w, hheld, hid⟩, hne⟩ := hin
      refine ⟨c, w, (hholds _ _ _).mpr ⟨hheld, ?_⟩, (hthreads w).trans hid⟩
      intro heq
      rw [heq] at hheld
      have hboth := hsame _ _ hheld
      rw [hboth.1] at hid
      exact hne hboth.2.symm hid.symm
    · intro hin
      obtain ⟨c, w, hheld, hid⟩ := hin
      rw [hthreads] at hid
      have hold := (hholds _ _ _).mp hheld
      refine ⟨⟨c, w, hold.1, hid⟩, fun _ => ?_⟩
      rw [← hid]
      exact halone _ _ _ _ _ hcall hold.1 hold.2
  · intro c w i hin
    rw [hthreads]
    exact h.present _ _ _ ((hholds _ _ _).mp hin).1

/-- A call goes on with the worker that it holds, or without one. -/
theorem Reserved.next {state : DeliverCall Thread} (h : Reserved pool)
    (hstate : state.held = (pool.calls call).held) : Reserved (pool.setCall call state) := by
  have hheld : ∀ other, ((pool.setCall call state).calls other).held = (pool.calls other).held := by
    intro other
    by_cases heq : other = call
    · rw [heq, setCall_self, hstate]
    · rw [setCall_ne heq]
  exact h.congr rfl rfl hheld fun _ _ _ _ => rfl

theorem Reserved.refuse (h : Reserved pool) (hcall : (pool.calls call).held = none) : Reserved (pool.refuse call) := by
  have hrelease : Reserved pool.release := h.congr rfl rfl (fun _ => rfl) fun _ _ _ _ => rfl
  exact hrelease.next hcall.symm

theorem Reserved.ensureSourceThreadName (h : Reserved pool) (reply : Option SourceReply) :
    Reserved (pool.ensureSourceThreadName reply) := by
  unfold MessageAgentPool.ensureSourceThreadName
  split
  · exact h
  · split
    · exact ⟨h.reserved, h.initializing, h.present⟩
    · exact ⟨h.reserved, h.initializing, h.present⟩

theorem ensureSourceThreadName_calls (reply : Option SourceReply) :
    (pool.ensureSourceThreadName reply).calls = pool.calls := by
  unfold ensureSourceThreadName
  split
  · rfl
  · split <;> rfl

theorem Reserved.createWorker (h : Reserved pool) (hcall : (pool.calls call).held = none) :
    Reserved (pool.createWorker call) := by
  unfold MessageAgentPool.createWorker
  split
  · exact h.refuse hcall
  · exact h.next hcall.symm

end

/-! ## Allocations and deliveries -/

theorem Reserved.allocate (h : Reserved pool) (hcall : (pool.calls call).held = none) :
    Reserved (pool.allocate call worker true) := by
  unfold MessageAgentPool.allocate
  cases hworker : pool.workers[worker]? with
  | none => exact h.refuse hcall
  | some row =>
    have hthread : pool.threadOf worker = some row.threadId := by
      unfold threadOf
      rw [hworker]
      rfl
    apply h.take (!row.initialized && decide (row.threadId ∉ pool.initializingWorkerIds)) hcall hthread
    · exact fun _ => mem_addId
    · intro other
      show other ∈ (if _ then _ else _) ↔ _
      split
      · rename_i hinit
        rw [mem_addId, hinit]
        simp
      · rename_i hinit
        exact (or_iff_left fun hand => hinit hand.1).symm
    · show ((MessageAgentPool.setCall _ _ _).calls call).held = _
      rw [setCall_self]
      rfl
    · exact fun _ hne => setCall_ne hne
    · exact fun _ => rfl

theorem Reserved.settle {shouldInitialize : Bool} (h : Reserved pool) (hcall : pool.Holds call worker shouldInitialize)
    (halone : pool.Alone call) : Reserved (pool.settle call worker shouldInitialize) := by
  apply h.giveBack hcall halone
  · exact fun _ => mem_deleteId
  · intro id
    show id ∈ (if _ then _ else _) ↔ _
    split
    · rename_i hinit
      rw [mem_deleteId]
      simp [hinit]
    · rename_i hinit
      simp [hinit]
  · show ((MessageAgentPool.setCall _ _ _).calls call).held = _
    rw [setCall_self]
    rfl
  · exact fun _ hne => setCall_ne hne
  · exact fun _ => rfl

/-- The answer gives the worker an id that it does not have. -/
def moves (worker : Nat) (reply : Reply Thread) (pool : MessageAgentPool Thread) : Bool :=
  reply.threadId.any fun id ↦
    decide (id ≠ pool.sourceThreadId) && reply.sameWorkspace && decide (pool.threadOf worker ≠ some id)

theorem adoptResolvedWorker_stays {reply : Reply Thread} {persisted : Bool} (h : pool.moves worker reply = false) :
    (pool.adoptResolvedWorker worker reply persisted).2 = pool := by
  unfold adoptResolvedWorker
  unfold moves at h
  cases hid : reply.threadId with
  | none => rfl
  | some id =>
    rw [hid] at h
    simp only [Option.any_some] at h
    dsimp only
    by_cases hrefused : (id = pool.sourceThreadId || !reply.sameWorkspace) = true
    · rw [if_pos hrefused]
    · rw [if_neg hrefused]
      have hsame : pool.threadOf worker = some id := by
        by_contra hne
        simp_all
      rw [if_pos hsame]

/-- A worker that no call holds may get a new id. -/
theorem Reserved.adopt {reply : Reply Thread} {persisted : Bool} (h : Reserved pool)
    (hfree : pool.moves worker reply = true → ∀ call shouldInitialize, ¬pool.Holds call worker shouldInitialize) :
    Reserved (pool.adoptResolvedWorker worker reply persisted).2 := by
  cases hmoves : pool.moves worker reply with
  | false => rw [adoptResolvedWorker_stays hmoves]; exact h
  | true =>
    unfold adoptResolvedWorker
    split
    · exact h
    · rename_i id _
      split
      · exact h
      · split
        · exact h
        · apply h.changeWorkers
          intro call other shouldInitialize hin
          have hne : worker ≠ other := fun heq => hfree hmoves call shouldInitialize (heq ▸ hin)
          unfold threadOf
          rw [List.getElem?_set_ne hne]

theorem adoptResolvedWorker_calls {reply : Reply Thread} {persisted : Bool} :
    (pool.adoptResolvedWorker worker reply persisted).2.calls = pool.calls := by
  unfold adoptResolvedWorker
  split
  · rfl
  · split
    · rfl
    · split <;> rfl

theorem Reserved.replaced {reply : Option (Reply Thread)} {persisted : Bool} (h : Reserved pool)
    (hcall : (pool.calls call).held = none)
    (hfree : ∀ answer, reply = some answer → pool.moves worker answer = true →
      ∀ call shouldInitialize, ¬pool.Holds call worker shouldInitialize) :
    Reserved (pool.replaced call worker reply persisted true) := by
  unfold MessageAgentPool.replaced
  cases reply with
  | none => exact h.refuse hcall
  | some answer =>
    have hadopt : Reserved (pool.adoptResolvedWorker worker answer persisted).2 := h.adopt (hfree answer rfl)
    have hcalls : ((pool.adoptResolvedWorker worker answer persisted).2.calls call).held = none := by
      rw [adoptResolvedWorker_calls]
      exact hcall
    dsimp only
    split
    · rename_i next heq
      rw [heq] at hadopt hcalls
      exact hadopt.allocate hcalls
    · rename_i next _ heq
      rw [heq] at hadopt hcalls
      exact hadopt.refuse hcalls

theorem Reserved.created {reply : Option (Reply Thread)} {persisted : Bool} (h : Reserved pool)
    (hcall : (pool.calls call).held = none) : Reserved (pool.created call reply persisted true) := by
  unfold MessageAgentPool.created
  split
  · exact h.refuse hcall
  · exact h.refuse hcall
  · rename_i id sameWorkspace
    split
    · exact h.refuse hcall
    · have hpushed : Reserved { pool with workers := pool.workers ++ [(⟨id, false⟩ : MessageAgentWorker Thread)] } := by
        apply h.changeWorkers
        intro other worker shouldInitialize hin
        have hsome := h.present _ _ _ hin
        unfold threadOf at hsome ⊢
        have hlt : worker < pool.workers.length := by
          by_contra hge
          rw [List.getElem?_eq_none (not_lt.mp hge)] at hsome
          cases hsome
        rw [List.getElem?_append_left hlt]
      dsimp only
      split
      · exact hpushed.allocate hcall
      · exact hpushed.refuse hcall

theorem Reserved.finish {shouldInitialize : Bool} (h : Reserved pool) (hcall : pool.Holds call worker shouldInitialize)
    (halone : pool.Alone call) : Reserved (pool.finish call worker shouldInitialize) := by
  have hworkers : ∀ other, ((if shouldInitialize = true then
      pool.workers.modify worker fun row => { row with initialized := true }
      else pool.workers)[other]?).map MessageAgentWorker.threadId = pool.threadOf other := by
    intro other
    unfold threadOf
    split
    · rw [List.getElem?_modify]
      cases pool.workers[other]? with
      | none => rfl
      | some row =>
        show Option.map _ (some (if _ then _ else _)) = _
        split <;> rfl
    · rfl
  have hpool := h.changeWorkers _ fun _ other _ _ => hworkers other
  apply hpool.settle hcall
  intro worker' initialize' other worker'' initialize'' hheld hother hne heq
  exact halone worker' initialize' other worker'' initialize'' hheld hother hne
    ((hworkers worker'').symm.trans (heq.trans (hworkers worker')))

/-! ## Steps -/

/-- The answer ends the call: it was the last batch, or the call throws. -/
def lastAnswer (worker rest : Nat) (reply : Option (Reply Thread)) (persisted : Bool)
    (pool : MessageAgentPool Thread) : Bool :=
  decide (rest = 0) || reply.all fun answer ↦
    decide ((pool.adoptResolvedWorker worker answer persisted).1 = .thrown)

/-- No worker in flight gets a new id, a call that ends is the only one in flight with its worker's id, and no
allocation throws after its reservation. -/
def Steady : PoolEvent Thread → MessageAgentPool Thread → Prop
  | .titled _ _ _ _ kept, _ => kept = true
  | .selected _ _ kept, _ => kept = true
  | .created _ _ _ kept, _ => kept = true
  | .replaced call reply _ kept, pool => kept = true ∧ ∀ worker answer, pool.calls call = .replacing worker →
      reply = some answer → pool.moves worker answer = true →
      ∀ other shouldInitialize, ¬pool.Holds other worker shouldInitialize
  | .staged call batches, pool => batches = none ∨ batches = some 0 → pool.Alone call
  | .answered call reply persisted, pool => ∀ worker shouldInitialize rest,
      pool.calls call = .delivering worker shouldInitialize rest →
      (∀ answer, reply = some answer → pool.moves worker answer = false) ∧
        (pool.lastAnswer worker rest reply persisted = true → pool.Alone call)
  | _, _ => True

theorem Reserved.staged {shouldInitialize : Bool} {batches : Option Nat} (h : Reserved pool) (hcall : pool.calls call =
    .allocated worker shouldInitialize) (halone : batches = none ∨ batches = some 0 → pool.Alone call) : Reserved
    (pool.staged call worker shouldInitialize batches) := by
  have hholds : pool.Holds call worker shouldInitialize := by
    unfold Holds
    rw [hcall]
    rfl
  unfold MessageAgentPool.staged
  split
  · exact h.settle hholds (halone (Or.inl rfl))
  · exact h.finish hholds (halone (Or.inr rfl))
  · exact h.next (by rw [hcall]; rfl)

theorem Reserved.answered {shouldInitialize : Bool} {rest : Nat} {reply : Option (Reply Thread)} {persisted : Bool} (h :
    Reserved pool) (hcall : pool.calls call = .delivering worker shouldInitialize rest) (hstays : ∀ answer, reply = some
    answer → pool.moves worker answer = false) (halone : pool.lastAnswer worker rest reply persisted = true → pool.Alone
    call) : Reserved (pool.answered call worker shouldInitialize rest reply persisted) := by
  have hholds : pool.Holds call worker shouldInitialize := by
    unfold Holds
    rw [hcall]
    rfl
  unfold MessageAgentPool.answered
  unfold lastAnswer at halone
  cases reply with
  | none => exact h.settle hholds (halone (by simp))
  | some answer =>
    have hpool : (pool.adoptResolvedWorker worker answer persisted).2 = pool :=
      adoptResolvedWorker_stays (hstays answer rfl)
    simp only [Option.all_some] at halone
    dsimp only
    generalize hadopt : pool.adoptResolvedWorker worker answer persisted = adopted at *
    obtain ⟨adoption, next⟩ := adopted
    change next = pool at hpool
    rw [hpool]
    cases adoption with
    | thrown => exact h.settle hholds (halone (by simp))
    | adopted =>
      cases rest with
      | zero => exact h.finish hholds (halone (by simp))
      | succ rest => exact h.next (by rw [hcall]; rfl)
    | unnamed =>
      cases rest with
      | zero => exact h.finish hholds (halone (by simp))
      | succ rest => exact h.next (by rw [hcall]; rfl)

theorem Reserved.ranked {heartbeat : Bool} {candidates : List (Nat × Nat)} (h : Reserved pool)
    (hcall : (pool.calls call).held = none) : Reserved (pool.ranked call heartbeat candidates true) := by
  unfold MessageAgentPool.ranked
  split
  · exact h.allocate hcall
  · exact h.next hcall.symm

theorem Reserved.apply {event : PoolEvent Thread} (h : Reserved pool) (hsteady : Steady event pool)
    (hstep : pool.apply event = some pool') : Reserved pool' := by
  cases event with
  | deliver call =>
    simp only [MessageAgentPool.apply] at hstep
    split at hstep
    · rename_i hnew
      cases hstep
      have hqueued : Reserved { pool with allocation := pool.allocation ++ [call] } :=
        ⟨h.reserved, h.initializing, h.present⟩
      exact hqueued.next (by rw [hnew]; rfl)
    · cases hstep
  | entered call =>
    simp only [MessageAgentPool.apply] at hstep
    split at hstep
    · rename_i hqueued
      cases hstep
      exact h.next (by rw [hqueued.1]; rfl)
    · cases hstep
  | named call reply =>
    simp only [MessageAgentPool.apply] at hstep
    split at hstep
    · rename_i hnaming
      cases hstep
      apply (h.ensureSourceThreadName reply).next
      rw [ensureSourceThreadName_calls, hnaming]
      rfl
    · cases hstep
  | titled call renamed heartbeat candidates kept =>
    cases hsteady
    simp only [MessageAgentPool.apply] at hstep
    split at hstep
    · rename_i htitling
      have hcall : (pool.calls call).held = none := by rw [htitling]; rfl
      split at hstep
      · cases hstep
        exact h.refuse hcall
      · cases hstep
        have htitled : Reserved { pool with workerTitlesNormalized := pool.workerTitlesNormalized || renamed } :=
          ⟨h.reserved, h.initializing, h.present⟩
        exact htitled.ranked hcall
    · cases hstep
  | read call worker availability =>
    simp only [MessageAgentPool.apply] at hstep
    split at hstep
    · rename_i hreading
      cases hstep
      exact h.next (by rw [hreading]; rfl)
    · cases hstep
  | selected call idleFallbacks kept =>
    cases hsteady
    simp only [MessageAgentPool.apply] at hstep
    split at hstep
    · rename_i hreading
      have hcall : (pool.calls call).held = none := by rw [hreading]; rfl
      split at hstep
      · split at hstep
        · cases hstep
          exact h.allocate hcall
        · cases hstep
          exact h.next hcall.symm
        · cases hstep
          exact h.createWorker hcall
        · cases hstep
          exact h.refuse hcall
      · cases hstep
    · cases hstep
  | created call reply persisted kept =>
    cases hsteady
    simp only [MessageAgentPool.apply] at hstep
    split at hstep
    · rename_i hcreating
      cases hstep
      exact h.created (by rw [hcreating]; rfl)
    · cases hstep
  | replaced call reply persisted kept =>
    obtain ⟨hkept, hfree⟩ := hsteady
    cases hkept
    simp only [MessageAgentPool.apply] at hstep
    split at hstep
    · rename_i worker hreplacing
      cases hstep
      exact h.replaced (by rw [hreplacing]; rfl) fun answer hreply hmoves => hfree worker answer hreplacing hreply hmoves
    · cases hstep
  | staged call batches =>
    simp only [MessageAgentPool.apply] at hstep
    split at hstep
    · rename_i hallocated
      cases hstep
      exact h.staged hallocated hsteady
    · cases hstep
  | answered call reply persisted =>
    simp only [MessageAgentPool.apply] at hstep
    split at hstep
    · rename_i worker shouldInitialize rest hdelivering
      cases hstep
      have hboth := hsteady worker shouldInitialize rest hdelivering
      exact h.answered hdelivering hboth.1 hboth.2
    · cases hstep

/-! ## Runs -/

/-- While calls hold workers, each such worker is reported as active and its owner not asked; when all calls
have settled, no id is reserved or marked. -/
structure Busy (pool : MessageAgentPool Thread) : Prop where
  active : ∀ call worker shouldInitialize, pool.Holds call worker shouldInitialize →
    ∃ id, pool.threadOf worker = some id ∧ ⟨worker, some (id, .active)⟩ ∈ pool.readWorkerAvailability
  settled : (∀ call, pool.calls call = .notStarted ∨ pool.calls call = .settled) →
    pool.reservedWorkerIds = [] ∧ pool.initializingWorkerIds = []

theorem Reserved.busy (h : Reserved pool) : Busy pool := by
  constructor
  · intro call worker shouldInitialize hin
    have hsome := h.present _ _ _ hin
    obtain ⟨id, hid⟩ := Option.isSome_iff_exists.mp hsome
    have hreserved : id ∈ pool.reservedWorkerIds := (h.reserved id).mpr ⟨_, _, _, hin, hid⟩
    have hlt : worker < pool.workers.length := by
      by_contra hge
      unfold threadOf at hid
      rw [List.getElem?_eq_none (not_lt.mp hge)] at hid
      cases hid
    refine ⟨id, hid, ?_⟩
    unfold readWorkerAvailability
    apply List.mem_map.mpr
    refine ⟨worker, List.mem_range.mpr hlt, ?_⟩
    rw [hid]
    simp [hreserved]
  · intro hsettled
    have hnone : ∀ call worker shouldInitialize, ¬pool.Holds call worker shouldInitialize := by
      intro call worker shouldInitialize hin
      unfold Holds at hin
      cases hsettled call with
      | inl hcall => rw [hcall] at hin; cases hin
      | inr hcall => rw [hcall] at hin; cases hin
    constructor
    · apply List.eq_nil_iff_forall_not_mem.mpr
      intro id hid
      obtain ⟨_, _, _, hin, _⟩ := (h.reserved id).mp hid
      exact hnone _ _ _ hin
    · apply List.eq_nil_iff_forall_not_mem.mpr
      intro id hid
      obtain ⟨_, _, hin, _⟩ := (h.initializing id).mp hid
      exact hnone _ _ _ hin

omit [DecidableEq Thread] in
theorem reserved_opened (sourceThreadId : Thread) (maxAgents : Option Nat)
    (workers : List (MessageAgentWorker Thread)) : Reserved (opened sourceThreadId maxAgents workers) := by
  have hnone : ∀ call worker shouldInitialize,
      ¬(opened sourceThreadId maxAgents workers).Holds call worker shouldInitialize := by
    intro call worker shouldInitialize hin
    cases hin
  constructor
  · intro id
    refine iff_of_false List.not_mem_nil ?_
    intro hin
    obtain ⟨_, _, _, hin, _⟩ := hin
    exact hnone _ _ _ hin
  · intro id
    refine iff_of_false List.not_mem_nil ?_
    intro hin
    obtain ⟨_, _, hin, _⟩ := hin
    exact hnone _ _ _ hin
  · exact fun _ _ _ hin => absurd hin (hnone _ _ _)

theorem worker_in_flight_is_busy (sourceThreadId : Thread) (maxAgents : Option Nat)
    (workers : List (MessageAgentWorker Thread))
    (h : system.ReachUnder Steady (opened sourceThreadId maxAgents workers) pool) : Busy pool := by
  have hreserved : Reserved pool := by
    apply h.invariant (reserved_opened sourceThreadId maxAgents workers)
    intro event pool _ pool' hreserved hsteady hstep
    obtain ⟨next, hnext, heq⟩ := Option.map_eq_some_iff.mp hstep
    cases heq
    exact hreserved.apply hsteady hnext
  exact hreserved.busy

/-- One call delivers its only batch to a worker that has to be initialized, and settles. -/
theorem one_call_is_busy : ∃ delivering settled : MessageAgentPool Nat,
    delivering.Holds 0 0 true ∧ Busy delivering ∧ settled.calls 0 = .settled ∧ Busy settled := by
  have h1 : system.ReachUnder Steady (opened 0 none [⟨7, false⟩]) _ :=
    .next (.deliver 0) () .refl trivial rfl
  have h2 : system.ReachUnder Steady _ _ := h1.next (.entered 0) () trivial rfl
  have h3 : system.ReachUnder Steady _ _ := h2.next (.named 0 none) () trivial rfl
  have h4 : system.ReachUnder Steady _ _ := h3.next (.titled 0 true true [(0, 5000)] true) () rfl rfl
  have h5 : system.ReachUnder Steady _ _ := h4.next (.staged 0 (some 1)) ()
    (fun hor ↦ by cases hor with | inl h => cases h | inr h => cases h) rfl
  have h6 : system.ReachUnder Steady _ _ := h5.next (.answered 0 (some ⟨some 7, true⟩) true) ()
    (by
      intro worker shouldInitialize rest hcall
      cases hcall
      refine ⟨fun answer heq ↦ by cases heq; rfl, fun _ worker' initialize' other worker'' initialize'' _ hin hne ↦ ?_⟩
      cases other with
      | zero => exact absurd rfl hne
      | succ other => cases hin) rfl
  refine ⟨_, _, ?_, worker_in_flight_is_busy _ _ _ h5, ?_, worker_in_flight_is_busy _ _ _ h6⟩
  · rfl
  · rfl

/-- Two heartbeats are given to one worker; the first that ends gives its id back. -/
theorem reservation_given_back_by_another :
    ¬∀ pool : MessageAgentPool Nat, system.Reach (opened 0 (some 1) [⟨7, true⟩]) pool → Busy pool := by
  intro hclaim
  have hrun : ((system.run (opened 0 (some 1) [⟨7, true⟩]) [.deliver 0, .entered 0, .named 0 none,
      .titled 0 true true [(0, 5000)] true, .deliver 1, .entered 1, .named 1 none,
      .titled 1 true true [(0, 5000)] true, .staged 1 (some 1), .staged 0 (some 1),
      .answered 0 (some ⟨some 7, true⟩) true]).any fun pool ↦
        decide ((pool.calls 1).held = some (0, false)) && decide (pool.readWorkerAvailability = [⟨0, none⟩])) = true := by
    decide
  obtain ⟨pool, hpool, hboth⟩ := (Option.any_eq_true _ _).mp hrun
  rw [Bool.and_eq_true, decide_eq_true_eq, decide_eq_true_eq] at hboth
  obtain ⟨id, _, hrow⟩ := (hclaim pool (System.run_reach hpool)).active 1 0 false hboth.1
  rw [hboth.2] at hrow
  simp at hrow

end RabiRoute.MessageAgents.MessageAgentPool
