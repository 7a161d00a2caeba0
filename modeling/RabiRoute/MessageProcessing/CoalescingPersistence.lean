import RabiRoute.Collections.InsertionMap
import RabiRoute.Transitions.System

/-!
# Coalesced writes of the board

`CoalescingMessageProcessingBoardPersistence`: the last accepted snapshot waits for a timer or a flush,
and one write runs at a time.  The handlers of its promise run one after the other, and anything may
happen between them; what they report to does not throw.
-/

open Collections Transitions

namespace RabiRoute.MessageProcessing

/-- `number` is a history: the place of the snapshot among the accepted ones. -/
structure Snapshot (σ : Type) where
  number : Nat
  state : σ

/-- How far the chain of handlers of a write is: the promise of the writer is open or has settled, or the
`then` or the `catch` has run and the `finally` is next. -/
inductive WriteStage where
  | writing
  | fulfilled
  | rejected
  | finishing (written : Bool)
deriving DecidableEq

/-- `operation` names the promise that `startWrite` answers. -/
structure ActiveWrite (σ : Type) where
  operation : Nat
  snapshot : Snapshot σ
  stage : WriteStage

/-- The snapshot of a write that has not been written, and has not been put back. -/
def ActiveWrite.unwritten {σ : Type} (active : ActiveWrite σ) : List (Snapshot σ) :=
  match active.stage with
  | .writing | .rejected => [active.snapshot]
  | .fulfilled | .finishing _ => []

inductive FlushState where
  | awaiting (operation : Nat)
  | resolved
  | rejected
deriving DecidableEq

/-- `outcomes` has the operations that have settled, `retries` those that a timer has started.  `stopFlush` is
the flush of `stopPromise`.  The last three fields are histories: the accepted snapshots, those that
the writer has written, and the calls of the writer that have not settled. -/
structure CoalescingPersistence (σ : Type) where
  pendingState : Option (Snapshot σ) := none
  flushTimer : Bool := false
  activeWrite : Option (ActiveWrite σ) := none
  accepting : Bool := true
  stopped : Bool := false
  operations : Nat := 0
  outcomes : InsertionMap Nat Bool := .empty
  retries : List Nat := []
  flushes : InsertionMap Nat FlushState := .empty
  flushCalls : Nat := 0
  stopFlush : Option Nat := none
  accepted : List (Snapshot σ) := []
  written : List (Snapshot σ) := []
  writers : Nat := 0

namespace CoalescingPersistence

variable {σ : Type}

def scheduleWrite (c : CoalescingPersistence σ) : CoalescingPersistence σ :=
  if !c.accepting || c.flushTimer || c.activeWrite.isSome || c.pendingState.isNone then c
  else { c with flushTimer := true }

def write (state : σ) (c : CoalescingPersistence σ) : CoalescingPersistence σ :=
  if c.accepting then
    let snapshot : Snapshot σ := ⟨c.accepted.length, state⟩
    scheduleWrite { c with pendingState := some snapshot, accepted := c.accepted ++ [snapshot] }
  else c

/-- `startWrite`, with the operation that it answers. -/
def startWrite (c : CoalescingPersistence σ) : CoalescingPersistence σ × Option Nat :=
  match c.activeWrite, c.pendingState with
  | some active, _ => (c, some active.operation)
  | none, none => (c, none)
  | none, some snapshot =>
    ({ c with
        pendingState := none
        activeWrite := some ⟨c.operations, snapshot, .writing⟩
        operations := c.operations + 1
        writers := c.writers + 1 }, some c.operations)

/-- The callback of the timer. -/
def timerFires (c : CoalescingPersistence σ) : CoalescingPersistence σ :=
  let (c, operation) := startWrite { c with flushTimer := false }
  { c with retries := c.retries ++ operation.toList }

/-- The loop of the flush `call`, from its condition to the next await. -/
def flushLoop (call : Nat) (c : CoalescingPersistence σ) : CoalescingPersistence σ :=
  if c.pendingState.isSome || c.activeWrite.isSome then
    let (c, operation) := startWrite { c with flushTimer := false }
    match operation with
    | some operation => { c with flushes := c.flushes.set call (.awaiting operation) }
    | none => c
  else { c with flushes := c.flushes.set call .resolved }

def flush (c : CoalescingPersistence σ) : CoalescingPersistence σ :=
  flushLoop c.flushCalls { c with flushCalls := c.flushCalls + 1 }

def stop (c : CoalescingPersistence σ) : CoalescingPersistence σ :=
  if c.stopFlush.isSome then c
  else flush { c with accepting := false, flushTimer := false, stopFlush := some c.flushCalls }

/-- `start`; it throws while something is left to do. -/
def start (c : CoalescingPersistence σ) : CoalescingPersistence σ :=
  if !c.stopped || c.activeWrite.isSome || c.flushTimer then c
  else { c with accepting := true, stopped := false, stopFlush := none }

/-- The promise of the writer settles; what it has fulfilled is durable. -/
def writerSettles (active : ActiveWrite σ) (fulfilled : Bool) (c : CoalescingPersistence σ) : CoalescingPersistence σ :=
  { c with
    activeWrite := some { active with stage := if fulfilled then .fulfilled else .rejected }
    written := if fulfilled then c.written ++ [active.snapshot] else c.written
    writers := c.writers - 1 }

/-- The `catch` of a write: the snapshot goes back unless a newer one waits. -/
def catches (active : ActiveWrite σ) (c : CoalescingPersistence σ) : CoalescingPersistence σ :=
  { c with
    pendingState := c.pendingState.or (some active.snapshot)
    activeWrite := some { active with stage := .finishing false } }

/-- The `finally` of a write, after which its operation has settled. -/
def finishes (active : ActiveWrite σ) (written : Bool) (c : CoalescingPersistence σ) : CoalescingPersistence σ :=
  scheduleWrite { c with activeWrite := none, outcomes := c.outcomes.set active.operation written }

end CoalescingPersistence

inductive PersistenceEvent (σ : Type) where
  | write (state : σ)
  | timer
  | flush
  | stop
  | start
  | writerSettles (fulfilled : Bool)
  /-- The next handler of the running write. -/
  | handler
  /-- A flush goes on after its await. -/
  | flushContinues (call : Nat)
  /-- The handler that the timer has set on its operation. -/
  | retry (operation : Nat)
  /-- The `finally` of `stop`. -/
  | stopEnds
deriving DecidableEq

namespace CoalescingPersistence

variable {σ : Type}

def step (e : PersistenceEvent σ) (c : CoalescingPersistence σ) : Option (CoalescingPersistence σ) :=
  match e with
  | .write state => some (c.write state)
  | .timer => if c.flushTimer then some c.timerFires else none
  | .flush => some c.flush
  | .stop => some c.stop
  | .start => some c.start
  | .writerSettles fulfilled =>
    match c.activeWrite with
    | some active => if active.stage = .writing then some (c.writerSettles active fulfilled) else none
    | none => none
  | .handler =>
    c.activeWrite.bind fun active ↦
      match active.stage with
      | .writing => none
      | .fulfilled => some { c with activeWrite := some { active with stage := .finishing true } }
      | .rejected => some (c.catches active)
      | .finishing written => some (c.finishes active written)
  | .flushContinues call =>
    match c.flushes.get? call with
    | some (.awaiting operation) =>
      (c.outcomes.get? operation).map fun written ↦
        if written then c.flushLoop call else { c with flushes := c.flushes.set call .rejected }
    | _ => none
  | .retry operation =>
    if operation ∈ c.retries ∧ c.outcomes.get? operation = some false then
      some (scheduleWrite { c with retries := c.retries.erase operation })
    else none
  | .stopEnds =>
    match c.stopFlush.bind c.flushes.get? with
    | some .resolved | some .rejected => some { c with stopped := true }
    | _ => none

def system : System (CoalescingPersistence σ) (PersistenceEvent σ) Unit where
  step e c := (c.step e).map fun c ↦ ((), c)

/-! ## Nothing goes backwards -/

/-- One call of the writer is open at most, and what was written was accepted in this order. -/
structure Forward (c : CoalescingPersistence σ) : Prop where
  oneWriter : c.writers ≤ 1
  subsequence : c.written.Sublist c.accepted

/-- The flush `call` resolves in this step. -/
def FlushResolves (call : Nat) (c c' : CoalescingPersistence σ) : Prop :=
  c.flushes.get? call ≠ some .resolved ∧ c'.flushes.get? call = some .resolved

/-- `stop` resolves in this step. -/
def StopResolves (c c' : CoalescingPersistence σ) : Prop :=
  c.stopped = false ∧ c'.stopped = true ∧ c'.stopFlush.bind c'.flushes.get? = some .resolved

/-! ## The invariant -/

/-- What was written, what is being written and what waits. -/
def chain (c : CoalescingPersistence σ) : List (Snapshot σ) :=
  c.written ++ ((c.activeWrite.map ActiveWrite.unwritten).getD [] ++ c.pendingState.toList)

def openWriters (c : CoalescingPersistence σ) : Nat :=
  if c.activeWrite.any fun active ↦ decide (active.stage = .writing) then 1 else 0

/-- Nothing waits and nothing is being written. -/
def Idle (c : CoalescingPersistence σ) : Prop := c.pendingState = none ∧ c.activeWrite = none

/-- The chain ends with the last accepted snapshot; a `stop` whose flush has resolved has left nothing. -/
structure Chained (c : CoalescingPersistence σ) : Prop where
  sublist : c.chain.Sublist c.accepted
  last : c.accepted.getLast? = c.chain.getLast?
  writers : c.writers = c.openWriters
  fresh : ∀ call, c.flushCalls ≤ call → c.flushes.get? call = none
  stopping : ∀ call, c.stopFlush = some call → c.accepting = false ∧ call < c.flushCalls ∧
    (c.flushes.get? call = some .resolved → c.Idle)

variable {c c' : CoalescingPersistence σ} {active : ActiveWrite σ}

theorem Idle.chain (h : c.Idle) : c.chain = c.written := by
  unfold CoalescingPersistence.chain
  rw [h.1, h.2]
  exact List.append_nil _

theorem Chained.forward (h : Chained c) : Forward c where
  oneWriter := by
    rw [h.writers]
    unfold openWriters
    split <;> omega
  subsequence := (List.sublist_append_left _ _).trans h.sublist

/-- What is idle has written the last accepted snapshot. -/
theorem Chained.written_last (h : Chained c) (hidle : c.Idle) : c.written.getLast? = c.accepted.getLast? := by
  rw [h.last, hidle.chain]

/-! ## Each step -/

/-- Timers touch nothing of this. -/
theorem Chained.timer (h : Chained c) (flushTimer : Bool) : Chained { c with flushTimer } :=
  ⟨h.sublist, h.last, h.writers, h.fresh, h.stopping⟩

theorem Chained.retries (h : Chained c) (retries : List Nat) : Chained { c with retries } :=
  ⟨h.sublist, h.last, h.writers, h.fresh, h.stopping⟩

theorem Chained.scheduleWrite (h : Chained c) : Chained c.scheduleWrite := by
  unfold CoalescingPersistence.scheduleWrite
  split
  · exact h
  · exact h.timer true

theorem Chained.write (h : Chained c) (state : σ) : Chained (c.write state) := by
  unfold CoalescingPersistence.write
  split
  case isTrue haccepting =>
    dsimp only
    apply Chained.scheduleWrite
    have hold : (c.written ++ (c.activeWrite.map ActiveWrite.unwritten).getD []).Sublist c.accepted := by
      refine List.Sublist.trans ?_ h.sublist
      unfold chain
      rw [← List.append_assoc]
      exact List.sublist_append_left _ _
    refine ⟨?_, ?_, h.writers, h.fresh, fun call hcall => ?_⟩
    · show (c.written ++ ((c.activeWrite.map ActiveWrite.unwritten).getD [] ++ [_])).Sublist (c.accepted ++ [_])
      rw [← List.append_assoc]
      exact hold.append (List.Sublist.refl _)
    · show (c.accepted ++ [_]).getLast? = (c.written ++ ((c.activeWrite.map ActiveWrite.unwritten).getD [] ++ [_])).getLast?
      rw [← List.append_assoc, List.getLast?_concat, List.getLast?_concat]
    · rw [(h.stopping call hcall).1] at haccepting
      cases haccepting
  case isFalse => exact h

/-- The snapshot that waits is taken over by a call of the writer. -/
theorem Chained.startWrite (h : Chained c) : Chained c.startWrite.1 := by
  unfold CoalescingPersistence.startWrite
  split
  case h_1 => exact h
  case h_2 => exact h
  case h_3 snapshot hactive hpending =>
    have hchain : chain { c with
        pendingState := none, activeWrite := some ⟨c.operations, snapshot, .writing⟩, operations := c.operations + 1,
        writers := c.writers + 1 } = c.chain := by
      unfold chain
      rw [hactive, hpending]
      rfl
    have hwriters := h.writers
    unfold openWriters at hwriters
    rw [hactive] at hwriters
    refine ⟨hchain ▸ h.sublist, h.last.trans (by rw [hchain]), ?_, h.fresh, fun call hcall => ?_⟩
    · show c.writers + 1 = 1
      rw [hwriters]
      rfl
    · obtain ⟨haccepting, hlt, hidle⟩ := h.stopping call hcall
      refine ⟨haccepting, hlt, fun hresolved => ?_⟩
      rw [(hidle hresolved).1] at hpending
      cases hpending

theorem Chained.timerFires (h : Chained c) : Chained c.timerFires :=
  ((h.timer false).startWrite).retries _

/-- What a flush records of its own state. -/
theorem Chained.setFlush (h : Chained c) {call : Nat} {state : FlushState} (hlt : call < c.flushCalls)
    (hidle : state = .resolved → c.Idle) : Chained { c with flushes := c.flushes.set call state } := by
  refine ⟨h.sublist, h.last, h.writers, fun call' hcall' => ?_, fun call' hcall' => ?_⟩
  · have hge : c.flushCalls ≤ call' := hcall'
    show (c.flushes.set call state).get? call' = none
    rw [InsertionMap.get?_set, if_neg (by omega)]
    exact h.fresh call' hge
  · obtain ⟨haccepting, hlt', hidle'⟩ := h.stopping call' hcall'
    refine ⟨haccepting, hlt', fun hresolved => ?_⟩
    have hget : (c.flushes.set call state).get? call' = some .resolved := hresolved
    rw [InsertionMap.get?_set] at hget
    split at hget
    · exact hidle (Option.some.inj hget)
    · exact hidle' hget

theorem startWrite_flushCalls : c.startWrite.1.flushCalls = c.flushCalls := by
  unfold startWrite
  split <;> rfl

theorem idle_of_condition (h : ¬ (c.pendingState.isSome || c.activeWrite.isSome) = true) : c.Idle := by
  rw [Bool.or_eq_true, not_or, Bool.not_eq_true, Bool.not_eq_true] at h
  exact ⟨Option.isSome_eq_false_iff.mp h.1 |> Option.isNone_iff_eq_none.mp,
    Option.isSome_eq_false_iff.mp h.2 |> Option.isNone_iff_eq_none.mp⟩

theorem Chained.flushLoop (h : Chained c) {call : Nat} (hlt : call < c.flushCalls) : Chained (c.flushLoop call) := by
  unfold CoalescingPersistence.flushLoop
  split
  case isTrue =>
    dsimp only
    have hstarted := (h.timer false).startWrite
    split
    · apply hstarted.setFlush
      · rw [startWrite_flushCalls]
        exact hlt
      · intro heq
        cases heq
    · exact hstarted
  case isFalse hcondition => exact h.setFlush hlt fun _ => idle_of_condition hcondition

/-- The number of a flush is drawn. -/
theorem Chained.draws (h : Chained c) : Chained { c with flushCalls := c.flushCalls + 1 } := by
  refine ⟨h.sublist, h.last, h.writers, fun call hcall => h.fresh call (Nat.le_of_succ_le hcall), fun call hcall => ?_⟩
  obtain ⟨haccepting, hlt, hidle⟩ := h.stopping call hcall
  exact ⟨haccepting, Nat.lt_succ_of_lt hlt, hidle⟩

theorem Chained.flush (h : Chained c) : Chained c.flush :=
  h.draws.flushLoop (Nat.lt_succ_self _)

theorem Chained.stop (h : Chained c) : Chained c.stop := by
  unfold CoalescingPersistence.stop
  split
  case isTrue => exact h
  case isFalse =>
    have hstopping : Chained { c with
        accepting := false, flushTimer := false, stopFlush := some c.flushCalls, flushCalls := c.flushCalls + 1 } := by
      refine ⟨h.sublist, h.last, h.writers, fun call hcall => h.fresh call (Nat.le_of_succ_le hcall), fun call hcall => ?_⟩
      obtain rfl : c.flushCalls = call := Option.some.inj hcall
      refine ⟨rfl, Nat.lt_succ_self _, fun hresolved => ?_⟩
      have hnone : c.flushes.get? c.flushCalls = some .resolved := hresolved
      rw [h.fresh _ (Nat.le_refl _)] at hnone
      cases hnone
    exact hstopping.flushLoop (Nat.lt_succ_self _)

theorem Chained.start (h : Chained c) : Chained c.start := by
  unfold CoalescingPersistence.start
  split
  · exact h
  · exact ⟨h.sublist, h.last, h.writers, h.fresh, fun call hcall => by cases hcall⟩

/-- The write goes on to its next stage. -/
theorem Chained.advances (h : Chained c) (hactive : c.activeWrite = some active) {stage : WriteStage}
    {pendingState : Option (Snapshot σ)} {written : List (Snapshot σ)} {writers : Nat}
    (hsublist : (written ++ (ActiveWrite.unwritten { active with stage } ++ pendingState.toList)).Sublist c.chain)
    (hlast : (written ++ (ActiveWrite.unwritten { active with stage } ++ pendingState.toList)).getLast? =
      c.chain.getLast?)
    (hwriters : writers = if stage = .writing then 1 else 0) :
    Chained { c with pendingState, activeWrite := some { active with stage }, written, writers } := by
  refine ⟨hsublist.trans h.sublist, h.last.trans hlast.symm, ?_, h.fresh, fun call hcall => ?_⟩
  · rw [hwriters]
    unfold openWriters
    simp only [Option.any_some, decide_eq_true_eq]
  · obtain ⟨haccepting, hlt, hidle⟩ := h.stopping call hcall
    refine ⟨haccepting, hlt, fun hresolved => ?_⟩
    rw [(hidle hresolved).2] at hactive
    cases hactive

theorem chain_eq (hactive : c.activeWrite = some active) {stage : WriteStage} (hstage : active.stage = stage) :
    c.chain = c.written ++ (ActiveWrite.unwritten { active with stage } ++ c.pendingState.toList) := by
  unfold chain
  rw [hactive, ← hstage]
  rfl

theorem Chained.writerSettles (h : Chained c) (hactive : c.activeWrite = some active)
    (hstage : active.stage = .writing) (fulfilled : Bool) : Chained (c.writerSettles active fulfilled) := by
  have hchain := chain_eq hactive hstage
  have hwriters : c.writers - 1 = 0 := by
    rw [h.writers]
    unfold openWriters
    split <;> rfl
  cases fulfilled with
  | true =>
    have hsame : c.written ++ [active.snapshot] ++
        (ActiveWrite.unwritten { active with stage := .fulfilled } ++ c.pendingState.toList) = c.chain := by
      rw [hchain, List.append_assoc]
      rfl
    exact h.advances hactive (hsame ▸ List.Sublist.refl _) (congrArg _ hsame) hwriters
  | false =>
    have hsame : c.written ++ (ActiveWrite.unwritten { active with stage := .rejected } ++ c.pendingState.toList) =
        c.chain := hchain.symm
    exact h.advances hactive (hsame ▸ List.Sublist.refl _) (congrArg _ hsame) hwriters

theorem Chained.catches (h : Chained c) (hactive : c.activeWrite = some active) (hstage : active.stage = .rejected) :
    Chained (c.catches active) := by
  have hwriters : c.writers = 0 := by
    rw [h.writers]
    unfold openWriters
    rw [hactive, Option.any_some, hstage]
    rfl
  have hchain : c.chain = c.written ++ ([active.snapshot] ++ c.pendingState.toList) := chain_eq hactive hstage
  unfold CoalescingPersistence.catches
  apply h.advances hactive _ _ hwriters
  · rw [hchain]
    apply List.Sublist.append (List.Sublist.refl _)
    cases c.pendingState with
    | none => exact List.Sublist.refl _
    | some snapshot => exact List.sublist_append_right _ _
  · rw [hchain]
    cases c.pendingState with
    | none => rfl
    | some snapshot =>
      show (c.written ++ [snapshot]).getLast? = (c.written ++ ([active.snapshot] ++ [snapshot])).getLast?
      rw [← List.append_assoc, List.getLast?_concat, List.getLast?_concat]

theorem Chained.finishes (h : Chained c) (hactive : c.activeWrite = some active) {written : Bool}
    (hstage : active.stage = .finishing written) : Chained (c.finishes active written) := by
  have hchain : c.chain = c.written ++ c.pendingState.toList := chain_eq hactive hstage
  have hwriters : c.writers = 0 := by
    rw [h.writers]
    unfold openWriters
    rw [hactive, Option.any_some, hstage]
    rfl
  apply Chained.scheduleWrite
  have hlast := h.last
  have hsublist := h.sublist
  rw [hchain] at hlast hsublist
  refine ⟨hsublist, hlast, hwriters, h.fresh, fun call hcall => ?_⟩
  obtain ⟨haccepting, hlt, hidle⟩ := h.stopping call hcall
  refine ⟨haccepting, hlt, fun hresolved => ?_⟩
  rw [(hidle hresolved).2] at hactive
  cases hactive

theorem Chained.handler (h : Chained c) (hstep : c.step .handler = some c') : Chained c' := by
  obtain ⟨active, hactive, hnext⟩ := Option.bind_eq_some_iff.mp hstep
  split at hnext
  case h_1 => cases hnext
  case h_2 hstage =>
    obtain rfl := Option.some.inj hnext
    have hsame : c.written ++ (ActiveWrite.unwritten { active with stage := .finishing true } ++
        c.pendingState.toList) = c.chain := (chain_eq hactive hstage).symm
    have hwriters : c.writers = 0 := by
      rw [h.writers]
      unfold openWriters
      rw [hactive, Option.any_some, hstage]
      rfl
    exact h.advances hactive (hsame ▸ List.Sublist.refl _) (congrArg _ hsame) hwriters
  case h_3 hstage =>
    obtain rfl := Option.some.inj hnext
    exact h.catches hactive hstage
  case h_4 written hstage =>
    obtain rfl := Option.some.inj hnext
    exact h.finishes hactive hstage

theorem Chained.flushContinues (h : Chained c) {call : Nat} (hstep : c.step (.flushContinues call) = some c') :
    Chained c' := by
  simp only [step] at hstep
  split at hstep
  case h_1 operation hcall =>
    have hlt : call < c.flushCalls := by
      by_contra hge
      rw [h.fresh call (Nat.le_of_not_lt hge)] at hcall
      cases hcall
    obtain ⟨written, -, heq⟩ := Option.map_eq_some_iff.mp hstep
    cases written with
    | true =>
      obtain rfl : c.flushLoop call = c' := heq
      exact h.flushLoop hlt
    | false =>
      obtain rfl : { c with flushes := c.flushes.set call .rejected } = c' := heq
      exact h.setFlush hlt fun heq => by cases heq
  case h_2 => cases hstep

theorem Chained.step (h : Chained c) {e : PersistenceEvent σ} (hstep : c.step e = some c') : Chained c' := by
  cases e with
  | write state =>
    obtain rfl := Option.some.inj hstep
    exact h.write state
  | timer =>
    simp only [CoalescingPersistence.step, Option.ite_none_right_eq_some, Option.some.injEq] at hstep
    obtain ⟨-, rfl⟩ := hstep
    exact h.timerFires
  | flush =>
    obtain rfl := Option.some.inj hstep
    exact h.flush
  | stop =>
    obtain rfl := Option.some.inj hstep
    exact h.stop
  | start =>
    obtain rfl := Option.some.inj hstep
    exact h.start
  | writerSettles fulfilled =>
    simp only [CoalescingPersistence.step] at hstep
    split at hstep
    case h_1 active hactive =>
      simp only [Option.ite_none_right_eq_some, Option.some.injEq] at hstep
      obtain ⟨hstage, rfl⟩ := hstep
      exact h.writerSettles hactive hstage fulfilled
    case h_2 => cases hstep
  | handler => exact h.handler hstep
  | flushContinues call => exact h.flushContinues hstep
  | retry operation =>
    simp only [CoalescingPersistence.step, Option.ite_none_right_eq_some, Option.some.injEq] at hstep
    obtain ⟨-, rfl⟩ := hstep
    exact (h.retries _).scheduleWrite
  | stopEnds =>
    simp only [CoalescingPersistence.step] at hstep
    split at hstep
    · obtain rfl := Option.some.inj hstep
      exact ⟨h.sublist, h.last, h.writers, h.fresh, h.stopping⟩
    · obtain rfl := Option.some.inj hstep
      exact ⟨h.sublist, h.last, h.writers, h.fresh, h.stopping⟩
    · cases hstep

theorem Chained.empty : Chained ({} : CoalescingPersistence σ) :=
  ⟨List.Sublist.refl _, rfl, rfl, fun _ _ => rfl, fun call hcall => by cases hcall⟩

theorem chained (h : system.Reach ({} : CoalescingPersistence σ) c) : Chained c := by
  refine h.invariant .empty fun e c a c' hc _ hstep => ?_
  obtain ⟨c'', hnext, heq⟩ := Option.map_eq_some_iff.mp hstep
  obtain rfl : c'' = c' := congrArg Prod.snd heq
  exact hc.step hnext

/-! ## What a flush finds when it resolves -/

theorem scheduleWrite_flushes : c.scheduleWrite.flushes = c.flushes := by
  unfold scheduleWrite
  split <;> rfl

theorem startWrite_flushes : c.startWrite.1.flushes = c.flushes := by
  unfold startWrite
  split <;> rfl

/-- A flush resolves only where its loop ends. -/
theorem flushLoop_resolves {call looping : Nat} (h : (c.flushLoop looping).flushes.get? call = some .resolved) :
    c.flushes.get? call = some .resolved ∨ (c.flushLoop looping).Idle := by
  unfold flushLoop at h ⊢
  split at h
  case isTrue hcondition =>
    left
    dsimp only at h
    split at h
    · have hget : (InsertionMap.set _ looping (FlushState.awaiting _)).get? call = some .resolved := h
      rw [InsertionMap.get?_set] at hget
      split at hget
      · cases hget
      · rw [startWrite_flushes] at hget
        exact hget
    · rw [startWrite_flushes] at h
      exact h
  case isFalse hcondition =>
    right
    rw [if_neg hcondition]
    exact idle_of_condition hcondition

/-- The other events leave the flushes. -/
theorem flushes_step {e : PersistenceEvent σ} (hstep : c.step e = some c') (hflush : e ≠ .flush) (hstop : e ≠ .stop)
    (hcontinues : ∀ call, e ≠ .flushContinues call) : c'.flushes = c.flushes := by
  cases e with
  | write state =>
    obtain rfl := Option.some.inj hstep
    unfold write
    split
    · exact scheduleWrite_flushes
    · rfl
  | timer =>
    simp only [step, Option.ite_none_right_eq_some, Option.some.injEq] at hstep
    obtain ⟨-, rfl⟩ := hstep
    exact startWrite_flushes
  | flush => exact absurd rfl hflush
  | stop => exact absurd rfl hstop
  | start =>
    obtain rfl := Option.some.inj hstep
    unfold start
    split <;> rfl
  | writerSettles fulfilled =>
    simp only [step] at hstep
    split at hstep
    · simp only [Option.ite_none_right_eq_some, Option.some.injEq] at hstep
      obtain ⟨-, rfl⟩ := hstep
      rfl
    · cases hstep
  | handler =>
    obtain ⟨active, -, hnext⟩ := Option.bind_eq_some_iff.mp hstep
    split at hnext
    · cases hnext
    · obtain rfl := Option.some.inj hnext
      rfl
    · obtain rfl := Option.some.inj hnext
      rfl
    · obtain rfl := Option.some.inj hnext
      exact scheduleWrite_flushes
  | flushContinues call => exact absurd rfl (hcontinues call)
  | retry operation =>
    simp only [step, Option.ite_none_right_eq_some, Option.some.injEq] at hstep
    obtain ⟨-, rfl⟩ := hstep
    exact scheduleWrite_flushes
  | stopEnds =>
    simp only [step] at hstep
    split at hstep
    · obtain rfl := Option.some.inj hstep
      rfl
    · obtain rfl := Option.some.inj hstep
      rfl
    · cases hstep

theorem idle_of_flushResolves {e : PersistenceEvent σ} {call : Nat} (hstep : c.step e = some c')
    (hresolves : FlushResolves call c c') : c'.Idle := by
  obtain ⟨hbefore, hafter⟩ := hresolves
  by_cases hflush : e = .flush
  · subst hflush
    obtain rfl := Option.some.inj hstep
    exact (flushLoop_resolves hafter).resolve_left hbefore
  by_cases hstop : e = .stop
  · subst hstop
    obtain rfl := Option.some.inj hstep
    unfold stop at hafter ⊢
    split at hafter
    case isTrue => exact absurd hafter hbefore
    case isFalse hnone =>
      rw [if_neg hnone]
      exact (flushLoop_resolves hafter).resolve_left hbefore
  by_cases hcontinues : ∃ call, e = .flushContinues call
  · obtain ⟨call', rfl⟩ := hcontinues
    simp only [step] at hstep
    split at hstep
    case h_1 operation hcall' =>
      obtain ⟨written, -, heq⟩ := Option.map_eq_some_iff.mp hstep
      cases written with
      | true =>
        obtain rfl : c.flushLoop call' = c' := heq
        exact (flushLoop_resolves hafter).resolve_left hbefore
      | false =>
        obtain rfl : { c with flushes := c.flushes.set call' .rejected } = c' := heq
        have hget : (c.flushes.set call' .rejected).get? call = some .resolved := hafter
        rw [InsertionMap.get?_set] at hget
        split at hget
        · cases hget
        · exact absurd hget hbefore
    case h_2 => cases hstep
  · rw [flushes_step hstep hflush hstop fun call heq => hcontinues ⟨call, heq⟩] at hafter
    exact absurd hafter hbefore

/-- The writes never go backwards, and a flush or a stop that resolves leaves the last accepted snapshot
written last. -/
theorem coalesced_writes (h : system.Reach ({} : CoalescingPersistence σ) c) : Forward c ∧
    ∀ e c', c.step e = some c' → (∃ call, FlushResolves call c c') ∨ StopResolves c c' →
      c'.written.getLast? = c'.accepted.getLast? := by
  have hchained := chained h
  refine ⟨hchained.forward, fun e c' hstep hresolves ↦ ?_⟩
  have hnext := hchained.step hstep
  apply hnext.written_last
  rcases hresolves with ⟨call, hflush⟩ | ⟨-, -, hstop⟩
  · exact idle_of_flushResolves hstep hflush
  · obtain ⟨call, hcall, hresolved⟩ := Option.bind_eq_some_iff.mp hstop
    exact (hnext.stopping call hcall).2.2 hresolved

/-- A write fails while a newer snapshot waits; `stop` ends when the newer one is written. -/
theorem coalesced_writes_failed : ∃ c c' : CoalescingPersistence Nat, Forward c ∧ StopResolves c c' ∧
    c'.accepted.map Snapshot.state = [10, 20] ∧ c'.written.getLast? = c'.accepted.getLast? := by
  have hrun : (system.run {}
      [.write 10, .timer, .write 20, .writerSettles false, .handler, .handler, .timer, .stop, .writerSettles true,
        .handler, .handler, .flushContinues 0]).any
      (fun c : CoalescingPersistence Nat ↦ (c.step .stopEnds).any fun c' ↦
        !c.stopped && c'.stopped && decide (c'.stopFlush.bind c'.flushes.get? = some .resolved) &&
          decide (c'.accepted.map Snapshot.state = [10, 20])) = true := by
    decide +kernel
  obtain ⟨c, hc, hend⟩ := (Option.any_eq_true _ _).mp hrun
  obtain ⟨c', hstep, hresolves⟩ := (Option.any_eq_true _ _).mp hend
  simp only [Bool.and_eq_true, Bool.not_eq_true', decide_eq_true_eq] at hresolves
  obtain ⟨⟨⟨hrunning, hstopped⟩, hflush⟩, haccepted⟩ := hresolves
  have hstop : StopResolves c c' := ⟨hrunning, hstopped, hflush⟩
  obtain ⟨hforward, hresolved⟩ := coalesced_writes (System.run_reach hc)
  exact ⟨c, c', hforward, hstop, haccepted, hresolved _ _ hstep (.inr hstop)⟩

end CoalescingPersistence

end RabiRoute.MessageProcessing
