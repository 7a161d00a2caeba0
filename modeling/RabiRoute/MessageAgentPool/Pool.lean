import RabiRoute.Transitions.System

/-!
# The pool of message agents

`MessageAgentPool` of `messageAgentPool.ts`: `deliver` and what it calls.  A call runs from one `await` to the
next; what it awaits ends at any later time and with any answer of the owner.  Titles, affinities and prompts
are left out: how they rank the workers is given with the event that ranks them.
-/

open Transitions

namespace RabiRoute.MessageAgents

inductive MessageAgentWorkerAvailability where
  | active
  | idle
  | notLoaded
  | archived
  | unavailable
  | missing
deriving DecidableEq

/-- `initialized` says that `initializedAt` is set. -/
structure MessageAgentWorker (Thread : Type) where
  threadId : Thread
  initialized : Bool := false

/-- The thread of an answer, if it names one, and whether its directory is the workspace of the pool. -/
structure Reply (Thread : Type) where
  threadId : Option Thread
  sameWorkspace : Bool := true

/-- What the read of the source thread says of its name; `none` when there is no such field. -/
structure SourceReply where
  availability : MessageAgentWorkerAvailability
  displayName : Option Bool

/-- A row of `readWorkerAvailability`, without an answer while its owner is asked. -/
structure Row (Thread : Type) where
  worker : Nat
  answer : Option (Thread × MessageAgentWorkerAvailability)
deriving DecidableEq

/-- What a call of `deliver` awaits.  Workers are named by their places; `rest` counts the batches after the
one that is being delivered. -/
inductive DeliverCall (Thread : Type) where
  | notStarted
  | queued
  | naming
  | titling
  | reading (ranked : List (Nat × Nat)) (rows : List (Row Thread))
  | creating
  | replacing (worker : Nat)
  | allocated (worker : Nat) (shouldInitialize : Bool)
  | delivering (worker : Nat) (shouldInitialize : Bool) (rest : Nat)
  | settled
deriving DecidableEq

/-- The calls of `allocation` wait for the lock, the first of them has it or is the next to take it. -/
structure MessageAgentPool (Thread : Type) where
  sourceThreadId : Thread
  maxAgents : Option Nat
  workers : List (MessageAgentWorker Thread)
  reservedWorkerIds : List Thread := []
  initializingWorkerIds : List Thread := []
  allocation : List Nat := []
  workerTitlesNormalized : Bool := false
  sourceThreadDisplayNameUnavailable : Bool := false
  sourceThreadNameResolved : Bool := false
  sourceThreadAvailability : Option MessageAgentWorkerAvailability := none
  calls : Nat → DeliverCall Thread := fun _ ↦ .notStarted

/-- The worker that the call has allocated, and whether it initializes it. -/
def DeliverCall.held {Thread : Type} : DeliverCall Thread → Option (Nat × Bool)
  | .allocated worker shouldInitialize => some (worker, shouldInitialize)
  | .delivering worker shouldInitialize _ => some (worker, shouldInitialize)
  | _ => none

namespace MessageAgentPool

variable {Thread : Type} [DecidableEq Thread]

def threadOf (worker : Nat) (pool : MessageAgentPool Thread) : Option Thread :=
  pool.workers[worker]?.map MessageAgentWorker.threadId

def setCall (call : Nat) (state : DeliverCall Thread) (pool : MessageAgentPool Thread) : MessageAgentPool Thread :=
  { pool with calls := fun c ↦ if c = call then state else pool.calls c }

/-- `Set.add` -/
def addId (id : Thread) (ids : List Thread) : List Thread := if id ∈ ids then ids else ids ++ [id]

/-- `Set.delete` -/
def deleteId (id : Option Thread) (ids : List Thread) : List Thread := ids.filter fun other ↦ decide (some other ≠ id)

/-! ## The allocation -/

/-- The `finally` of `withAllocationLock`. -/
def release (pool : MessageAgentPool Thread) : MessageAgentPool Thread := { pool with allocation := pool.allocation.tail }

/-- The work under the lock throws. -/
def refuse (call : Nat) (pool : MessageAgentPool Thread) : MessageAgentPool Thread :=
  pool.release.setCall call .settled

/-- `deliver` from the selected worker to the end of the lock; `kept` says that `remember`, `persist` and the
prompts do not throw. -/
def allocate (call worker : Nat) (kept : Bool) (pool : MessageAgentPool Thread) : MessageAgentPool Thread :=
  match pool.workers[worker]? with
  | none => pool.refuse call
  | some { threadId, initialized } =>
    let shouldInitialize := !initialized && decide (threadId ∉ pool.initializingWorkerIds)
    { pool with
      initializingWorkerIds :=
        if shouldInitialize then addId threadId pool.initializingWorkerIds else pool.initializingWorkerIds
      reservedWorkerIds := addId threadId pool.reservedWorkerIds }.release.setCall call
        (if kept then .allocated worker shouldInitialize else .settled)

def ensureSourceThreadName (reply : Option SourceReply) (pool : MessageAgentPool Thread) : MessageAgentPool Thread :=
  if pool.sourceThreadNameResolved then pool
  else
    match reply with
    | none => { pool with sourceThreadNameResolved := true, sourceThreadAvailability := some .unavailable }
    | some reply =>
      { pool with
        sourceThreadNameResolved := true
        sourceThreadAvailability := some reply.availability
        sourceThreadDisplayNameUnavailable :=
          pool.sourceThreadDisplayNameUnavailable || decide (reply.displayName = some false) }

/-- The rows as `readWorkerAvailability` begins: a reserved worker's owner is not asked. -/
def readWorkerAvailability (pool : MessageAgentPool Thread) : List (Row Thread) :=
  (List.range pool.workers.length).map fun worker ↦
    ⟨worker, ((pool.threadOf worker).filter fun id ↦ decide (id ∈ pool.reservedWorkerIds)).map fun id ↦ (id, .active)⟩

/-- An owner's answer makes a row under the id that the worker then has. -/
def answerRow (worker : Nat) (availability : MessageAgentWorkerAvailability) (pool : MessageAgentPool Thread)
    (row : Row Thread) : Row Thread :=
  if row.worker = worker ∧ row.answer = none then { row with answer := (pool.threadOf worker).map fun id ↦ (id, availability) }
  else row

/-- `new Map(rows)` and its `get`. -/
def availabilityOf (rows : List (Row Thread)) (id : Thread) : Option MessageAgentWorkerAvailability :=
  ((rows.filterMap Row.answer).reverse.find? fun entry ↦ decide (entry.1 = id)).map Prod.snd

def desktopAvailableForCreation (rows : List (Row Thread)) (pool : MessageAgentPool Thread) : Bool :=
  let available : List MessageAgentWorkerAvailability := [.active, .idle, .notLoaded]
  ((rows.filterMap Row.answer).any fun entry ↦ decide (entry.2 ∈ available)) ||
    pool.sourceThreadAvailability.any fun availability ↦ decide (availability ∈ available)

def full (pool : MessageAgentPool Thread) : Bool := pool.maxAgents.any fun limit ↦ decide (limit ≤ pool.workers.length)

inductive Selection where
  | use (worker : Nat)
  | replaceArchived (worker : Nat)
  | create
  | refuse

/-- `selectWorker` after the rows are read.  `ranked` holds the workers with a positive score, and the score. -/
def selectWorker (ranked : List (Nat × Nat)) (idleFallbacks : List Nat) (rows : List (Row Thread))
    (pool : MessageAgentPool Thread) : Selection :=
  let is (availability : MessageAgentWorkerAvailability) (worker : Nat) : Bool :=
    decide ((pool.threadOf worker).bind (availabilityOf rows) = some availability)
  let found : Option Selection :=
    (ranked.find? fun candidate ↦ decide (4000 ≤ candidate.2) || is .idle candidate.1).map (.use ·.1) <|>
    (idleFallbacks.find? (is .idle)).map .use <|>
    (ranked.find? fun candidate ↦ is .notLoaded candidate.1).map (.use ·.1) <|>
    (idleFallbacks.find? (is .notLoaded)).map .use <|>
    (idleFallbacks.find? (is .archived)).map .replaceArchived
  found.getD <|
    if pool.full && decide (0 < pool.workers.length) then
      .use ((ranked.head?.map Prod.fst <|> idleFallbacks.head?).getD 0)
    else if pool.desktopAvailableForCreation rows then .create
    else .refuse

/-- `createWorker` before the owner is asked. -/
def createWorker (call : Nat) (pool : MessageAgentPool Thread) : MessageAgentPool Thread :=
  if pool.sourceThreadDisplayNameUnavailable || pool.full then pool.refuse call else pool.setCall call .creating

/-- `createWorker` with the owner's answer, and the allocation of the new worker. -/
def created (call : Nat) (reply : Option (Reply Thread)) (persisted kept : Bool) (pool : MessageAgentPool Thread) :
    MessageAgentPool Thread :=
  match reply with
  | none | some { threadId := none, .. } => pool.refuse call
  | some { threadId := some id, sameWorkspace } =>
    if id = pool.sourceThreadId || !sameWorkspace then pool.refuse call
    else
      let pool := { pool with workers := pool.workers ++ [(⟨id, false⟩ : MessageAgentWorker Thread)] }
      if persisted then pool.allocate call (pool.workers.length - 1) kept else pool.refuse call

inductive Adoption where
  | adopted
  | unnamed
  | thrown
deriving DecidableEq

def adoptResolvedWorker (worker : Nat) (reply : Reply Thread) (persisted : Bool) (pool : MessageAgentPool Thread) :
    Adoption × MessageAgentPool Thread :=
  match reply.threadId with
  | none => (.unnamed, pool)
  | some nextThreadId =>
    if nextThreadId = pool.sourceThreadId || !reply.sameWorkspace then (.thrown, pool)
    else if pool.threadOf worker = some nextThreadId then (.adopted, pool)
    else
      (if persisted then .adopted else .thrown,
        { pool with workers := pool.workers.set worker { threadId := nextThreadId } })

/-- `replaceArchivedWorker` with the owner's answer, and the allocation. -/
def replaced (call worker : Nat) (reply : Option (Reply Thread)) (persisted kept : Bool)
    (pool : MessageAgentPool Thread) : MessageAgentPool Thread :=
  match reply with
  | none => pool.refuse call
  | some reply =>
    match pool.adoptResolvedWorker worker reply persisted with
    | (.adopted, pool) => pool.allocate call worker kept
    | (_, pool) => pool.refuse call

/-! ## The delivery -/

/-- The `finally` of `deliver`. -/
def settle (call worker : Nat) (shouldInitialize : Bool) (pool : MessageAgentPool Thread) : MessageAgentPool Thread :=
  { pool with
    reservedWorkerIds := deleteId (pool.threadOf worker) pool.reservedWorkerIds
    initializingWorkerIds :=
      if shouldInitialize then deleteId (pool.threadOf worker) pool.initializingWorkerIds
      else pool.initializingWorkerIds }.setCall call .settled

/-- After the last batch; the call also settles when `persist` throws. -/
def finish (call worker : Nat) (shouldInitialize : Bool) (pool : MessageAgentPool Thread) : MessageAgentPool Thread :=
  { pool with
    workers :=
      if shouldInitialize then pool.workers.modify worker fun row ↦ { row with initialized := true }
      else pool.workers }.settle call worker shouldInitialize

/-- The images are staged and batched, which may throw. -/
def staged (call worker : Nat) (shouldInitialize : Bool) (batches : Option Nat) (pool : MessageAgentPool Thread) :
    MessageAgentPool Thread :=
  match batches with
  | none => pool.settle call worker shouldInitialize
  | some 0 => pool.finish call worker shouldInitialize
  | some (rest + 1) => pool.setCall call (.delivering worker shouldInitialize rest)

/-- A batch has its answer; without one the request or the durable delivery has failed. -/
def answered (call worker : Nat) (shouldInitialize : Bool) (rest : Nat) (reply : Option (Reply Thread))
    (persisted : Bool) (pool : MessageAgentPool Thread) : MessageAgentPool Thread :=
  match reply with
  | none => pool.settle call worker shouldInitialize
  | some reply =>
    match pool.adoptResolvedWorker worker reply persisted, rest with
    | (.thrown, pool), _ => pool.settle call worker shouldInitialize
    | (_, pool), 0 => pool.finish call worker shouldInitialize
    | (_, pool), rest + 1 => pool.setCall call (.delivering worker shouldInitialize rest)

/-! ## Runs -/

inductive PoolEvent (Thread : Type) where
  | deliver (call : Nat)
  | entered (call : Nat)
  | named (call : Nat) (reply : Option SourceReply)
  | titled (call : Nat) (renamed heartbeat : Bool) (ranked : List (Nat × Nat)) (kept : Bool)
  | read (call worker : Nat) (availability : MessageAgentWorkerAvailability)
  | selected (call : Nat) (idleFallbacks : List Nat) (kept : Bool)
  | created (call : Nat) (reply : Option (Reply Thread)) (persisted kept : Bool)
  | replaced (call : Nat) (reply : Option (Reply Thread)) (persisted kept : Bool)
  | staged (call : Nat) (batches : Option Nat)
  | answered (call : Nat) (reply : Option (Reply Thread)) (persisted : Bool)

/-- `selectWorker` before the rows are read: a heartbeat takes the first ranked worker. -/
def ranked (call : Nat) (heartbeat : Bool) (candidates : List (Nat × Nat)) (kept : Bool)
    (pool : MessageAgentPool Thread) : MessageAgentPool Thread :=
  match heartbeat, candidates with
  | true, first :: _ => pool.allocate call first.1 kept
  | _, _ => pool.setCall call (.reading candidates pool.readWorkerAvailability)

def apply : PoolEvent Thread → MessageAgentPool Thread → Option (MessageAgentPool Thread)
  | .deliver call, pool =>
    if pool.calls call = .notStarted then
      some ({ pool with allocation := pool.allocation ++ [call] }.setCall call .queued)
    else none
  | .entered call, pool =>
    if pool.calls call = .queued ∧ pool.allocation.head? = some call then some (pool.setCall call .naming) else none
  | .named call reply, pool =>
    if pool.calls call = .naming then some ((pool.ensureSourceThreadName reply).setCall call .titling) else none
  | .titled call renamed heartbeat candidates kept, pool =>
    if pool.calls call = .titling then
      if !pool.workerTitlesNormalized && pool.sourceThreadDisplayNameUnavailable then some (pool.refuse call)
      else some ({ pool with workerTitlesNormalized := pool.workerTitlesNormalized || renamed }.ranked call heartbeat
        candidates kept)
    else none
  | .read call worker availability, pool =>
    match pool.calls call with
    | .reading candidates rows =>
      some (pool.setCall call (.reading candidates (rows.map (pool.answerRow worker availability))))
    | _ => none
  | .selected call idleFallbacks kept, pool =>
    match pool.calls call with
    | .reading candidates rows =>
      if rows.all fun row ↦ row.answer.isSome then
        match pool.selectWorker candidates idleFallbacks rows with
        | .use worker => some (pool.allocate call worker kept)
        | .replaceArchived worker => some (pool.setCall call (.replacing worker))
        | .create => some (pool.createWorker call)
        | .refuse => some (pool.refuse call)
      else none
    | _ => none
  | .created call reply persisted kept, pool =>
    if pool.calls call = .creating then some (pool.created call reply persisted kept) else none
  | .replaced call reply persisted kept, pool =>
    match pool.calls call with
    | .replacing worker => some (pool.replaced call worker reply persisted kept)
    | _ => none
  | .staged call batches, pool =>
    match pool.calls call with
    | .allocated worker shouldInitialize => some (pool.staged call worker shouldInitialize batches)
    | _ => none
  | .answered call reply persisted, pool =>
    match pool.calls call with
    | .delivering worker shouldInitialize rest =>
      some (pool.answered call worker shouldInitialize rest reply persisted)
    | _ => none

def system : System (MessageAgentPool Thread) (PoolEvent Thread) Unit where
  step event pool := (pool.apply event).map fun next ↦ ((), next)

/-- The pool as its constructor leaves it, with the workers of its state file. -/
def opened (sourceThreadId : Thread) (maxAgents : Option Nat) (workers : List (MessageAgentWorker Thread)) :
    MessageAgentPool Thread :=
  { sourceThreadId, maxAgents, workers }

end MessageAgentPool

end RabiRoute.MessageAgents
