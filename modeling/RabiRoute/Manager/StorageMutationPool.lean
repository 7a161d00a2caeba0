import RabiRoute.Shared.JsString
import RabiRoute.Transitions.System

/-!
# The pool of storage mutations

`ManagerStorageMutationPool`: requests wait in a queue, and one child at a time works on one request
at a time.  A child that does not answer is terminated; while its termination is not confirmed the
pool is blocked.  What an `async` function does after an `await` is a task, which may run at any
later moment.
-/

open Transitions

namespace RabiRoute.StorageMutationPool

inductive ErrorCode where
  | busy
  | timeout
  | aborted
  | worker_failed
  | mutation_failed
  | revision_conflict
  | idempotency_conflict
  | indeterminate
  | fence_mismatch
  | termination_unconfirmed
  | stopped
  | validation_rejected
  | authorization_revoked

inductive CommitState where
  | not_started
  | unknown

/-- A `ManagerStorageMutationError`, or a plain error that has no code. -/
structure MutationError where
  message : JsString
  code : Option ErrorCode := none
  commitState : Option CommitState := none

structure Fence where
  applicationGenerationId : JsString
  managerInstanceId : JsString
  storageGenerationLease : JsString
  roleId : JsString
  planId : Option JsString
deriving DecidableEq

def protocolVersion : Nat := 2

structure Identity where
  applicationGenerationId : JsString
  managerInstanceId : JsString
  storageGenerationLease : JsString

structure Request (T : Type) where
  requestId : JsString
  fence : Fence
  expectedRevision : Option JsString
  task : T
  admissionNonce : Option JsString

/-- What a message says: a request for admission, the result of the mutation, or nothing known. -/
inductive Body (V : Type) where
  | admission (isRequest commitAdmission : Bool) (sequence : Nat)
  | ok (value : Option V)
  | failed (message : Option JsString) (code : Option JsString)
  | other

def Body.isAdmission {V : Type} : Body V → Bool
  | .admission .. => true
  | _ => false

structure Message (V : Type) where
  protocolVersion : Nat
  requestId : JsString
  fence : Option Fence
  admissionNonce : Option JsString
  body : Body V

variable {T V : Type}

/-- Whether the message carries the version, id, fence and nonce of the request. -/
def Message.isFor (m : Message V) (request : Request T) : Bool :=
  m.protocolVersion = StorageMutationPool.protocolVersion && m.requestId = request.requestId &&
    m.fence = some request.fence && m.admissionNonce = request.admissionNonce

/-- `id` tells the calls of `execute` apart. -/
structure PendingMutation (T : Type) where
  id : Nat
  roleId : JsString
  planId : Option JsString
  idempotencyKey : JsString
  expectedRevision : Option JsString
  task : T
  timeoutMs : Nat
  hasAuthorize : Bool
  hasSignal : Bool

inductive Admission where
  | allowed
  | denied
deriving DecidableEq

/-- `listening` says that the abort listener is attached. -/
structure ActiveMutation (T : Type) where
  slot : Nat
  pending : PendingMutation T
  request : Request T
  listening : Bool
  admission : Option Admission := none
  terminating : Bool := false

/-- The termination of a child: it waits for the close after SIGTERM, then after SIGKILL, and says
in the end whether the close was observed. -/
inductive Flight where
  | sigterm
  | sigkill
  | done (confirmed : Bool)
deriving DecidableEq

structure ChildSlot where
  pid : Option Nat := none
  closed : Bool := false
  flight : Option Flight := none
  diagnosticBytes : Nat := 0

/-- What waits for the termination of a child; `known` is the answer when the child was already
closed. -/
inductive Task where
  | terminateActive (id slot : Nat) (cause : MutationError) (known : Option Bool)
  | terminateIdle (slot : Nat) (known : Option Bool)
  | stopActive (id slot : Nat) (known : Option Bool)
  | stopChild (slot : Nat) (known : Option Bool)

def Task.slot : Task → Nat
  | .terminateActive _ slot _ _ | .terminateIdle slot _ | .stopActive _ slot _ | .stopChild slot _ => slot

def Task.known : Task → Option Bool
  | .terminateActive _ _ _ known | .terminateIdle _ known | .stopActive _ _ known | .stopChild _ known =>
    known

inductive PoolState where
  | idle
  | running
  | blocked
  | stopping
  | stopped
deriving DecidableEq

/-- A request that was sent: whether the child has answered it, and whether the pool has accepted
the answer. -/
structure Sent (T : Type) where
  id : Nat
  slot : Nat
  request : Request T
  answered : Bool := false
  accepted : Bool := false

/-- How a promise settled, and the request whose answer that was. -/
structure Outcome (V : Type) where
  result : Except MutationError V
  answer : Option Nat := none

/-- The last seven fields are a history: the calls so far, the requests that were sent, how the
promises settled, the admission decisions, the calls whose `authorize` has thrown, and the calls
whose native work has been released or will be when a child closes. -/
structure Pool (T V : Type) where
  identity : Identity
  maxQueue : Nat
  slots : Nat → ChildSlot := fun _ ↦ {}
  spawnedChildren : Nat := 0
  childSlot : Option Nat := none
  blockedSlot : Option Nat := none
  queue : List (PendingMutation T) := []
  active : Option (ActiveMutation T) := none
  accepting : Bool := true
  stateValue : PoolState := .idle
  lastErrorCode : Option ErrorCode := none
  stopFlight : Bool := false
  tasks : List Task := []
  calls : Nat := 0
  sent : List (Sent T) := []
  settled : List (Nat × Outcome V) := []
  decisions : List (Nat × Bool) := []
  refused : List Nat := []
  released : List Nat := []
  deferred : List (Nat × Nat) := []

/-! ## Errors -/

def pidText (pid : Option Nat) : JsString :=
  match pid with
  | some pid => js (toString pid)
  | none => js "unknown"

def stoppedError : MutationError := { message := js "Storage mutation pool is stopped.", code := some .stopped }
def poolStoppedError : MutationError := { message := js "Storage mutation pool stopped.", code := some .stopped }
def abortedError : MutationError := { message := js "Storage mutation request was aborted.", code := some .aborted }
def revokedError : MutationError :=
  { message := js "Original request authorization was revoked.", code := some .authorization_revoked }
def queueFullError : MutationError := { message := js "Storage mutation queue is full.", code := some .busy }
def startError : MutationError :=
  { message := js "Storage mutation child failed to start.", code := some .worker_failed }
def sendError : MutationError :=
  { message := js "Storage mutation request could not be sent to the child.", code := some .worker_failed }
def decisionError : MutationError :=
  { message := js "Storage mutation admission decision could not be sent.", code := some .worker_failed,
    commitState := some .unknown }
def processError : MutationError :=
  { message := js "Storage mutation child process failed.", code := some .worker_failed }
def fenceError : MutationError :=
  { message := js "Storage mutation response failed request/generation/role/plan/admission fencing.",
    code := some .fence_mismatch, commitState := some .unknown }
def admissionRevokedError : MutationError :=
  { message := js "Original request authorization was revoked before commit admission.",
    code := some .authorization_revoked, commitState := some .unknown }

def timeoutError (timeoutMs : Nat) : MutationError :=
  { message := js "Storage mutation exceeded " ++ js (toString timeoutMs) ++ js " ms.", code := some .timeout }

def blockedError (pid : Option Nat) : MutationError :=
  { message := js "Storage mutation child termination is not confirmed: pid=" ++ pidText pid ++ js ".",
    code := some .termination_unconfirmed }

def unconfirmedError (cause : MutationError) (pid : Option Nat) : MutationError :=
  { message := cause.message ++ js " Child termination was not confirmed: pid=" ++ pidText pid ++ js ".",
    code := some .termination_unconfirmed }

def idleUnconfirmedError (pid : Option Nat) : MutationError :=
  { message := js "Storage mutation child process failed and termination was not confirmed: pid=" ++
      pidText pid ++ js ".",
    code := some .termination_unconfirmed }

def stopUnconfirmedError (pid : Option Nat) : MutationError :=
  { message := js "Storage mutation child termination was not confirmed during stop: pid=" ++ pidText pid ++
      js ".",
    code := some .termination_unconfirmed }

def exitedError (code : Option Nat) (signal : Option JsString) (diagnosticBytes : Nat) : MutationError :=
  { message := js "Storage mutation child exited before responding: code=" ++
      (match code with | some code => js (toString code) | none => js "none") ++ js "; signal=" ++
      signal.getD (js "none") ++
      (if diagnosticBytes > 0 then js "; diagnosticBytes=" ++ js (toString diagnosticBytes) else []),
    code := some .worker_failed }

/-- The error for the message of a child, by its prefix. -/
def mutationResponseError (message : JsString) : MutationError :=
  let rejected := js "STORAGE_MUTATION_VALIDATION_REJECTED:"
  if rejected.isPrefixOf message then
    { message := JsString.trim (message.drop rejected.length), code := some .validation_rejected }
  else if (js "STORAGE_MUTATION_REVISION_CONFLICT:").isPrefixOf message ||
      (js "PERSONA_PLAN_WORKFLOW_REVISION_CONFLICT:").isPrefixOf message then
    { message, code := some .revision_conflict }
  else if (js "STORAGE_MUTATION_CONFLICT:").isPrefixOf message then
    { message, code := some .idempotency_conflict }
  else if (js "STORAGE_MUTATION_UNCERTAIN:").isPrefixOf message ||
      (js "STORAGE_MUTATION_IN_PROGRESS:").isPrefixOf message then
    { message, code := some .indeterminate }
  else { message, code := some .mutation_failed }

namespace Pool

/-! ## Settling -/

def setSlot (i : Nat) (slot : ChildSlot) (s : Pool T V) : Pool T V :=
  { s with slots := Function.update s.slots i slot }

/-- The promise of the call `id` settles. -/
def settle (id : Nat) (outcome : Outcome V) (s : Pool T V) : Pool T V :=
  { s with settled := s.settled ++ [(id, outcome)] }

def rejectWith (id : Nat) (error : MutationError) (s : Pool T V) : Pool T V :=
  s.settle id { result := .error error }

/-- The native work of the call is released, and its promise rejects. -/
def rejectPending (id : Nat) (error : MutationError) (s : Pool T V) : Pool T V :=
  { s with released := s.released ++ [id] }.rejectWith id error

def rejectQueue (error : MutationError) (s : Pool T V) : Pool T V :=
  { s with
    queue := []
    released := s.released ++ s.queue.map PendingMutation.id
    settled := s.settled ++ s.queue.map fun pending ↦ (pending.id, { result := .error error }) }

/-- `settleActive` for the mutation of the call `id`.  The native work of a child that is being
terminated ends when the child closes. -/
def settleActive (id : Nat) (outcome : Outcome V) (s : Pool T V) : Pool T V :=
  match s.active with
  | none => s
  | some active =>
    if active.pending.id ≠ id then s
    else
      let waits := active.terminating && !(s.slots active.slot).closed
      { s with
        active := none
        released := if waits then s.released else s.released ++ [id]
        deferred := if waits then s.deferred ++ [(id, active.slot)] else s.deferred
        lastErrorCode :=
          match outcome.result with
          | .error error => some (error.code.getD .worker_failed)
          | .ok _ => none
        stateValue := if s.blockedSlot.isNone && s.accepting then .idle else s.stateValue }.settle id outcome

/-! ## Termination -/

def blockTermination (i : Nat) (s : Pool T V) : Pool T V :=
  { s with
    blockedSlot := some i
    childSlot := some i
    stateValue := .blocked
    lastErrorCode := some .termination_unconfirmed }

/-- The call starts the termination unless it is already on its way; the answer is known at once
for a closed child. -/
def terminateAndConfirm (i : Nat) (s : Pool T V) : Option Bool × Pool T V :=
  let slot := s.slots i
  if slot.closed then (some true, s)
  else if slot.flight.isSome then (none, s)
  else (none, s.setSlot i { slot with flight := some .sigterm })

def terminateActive (cause : MutationError) (s : Pool T V) : Pool T V :=
  match s.active with
  | none => s
  | some active =>
    if active.terminating then s
    else
      let s := { s with active := some { active with terminating := true, listening := false } }
      let (known, s) := s.terminateAndConfirm active.slot
      { s with tasks := s.tasks ++ [.terminateActive active.pending.id active.slot cause known] }

def terminateIdleChild (i : Nat) (s : Pool T V) : Pool T V :=
  let (known, s) := s.terminateAndConfirm i
  { s with tasks := s.tasks ++ [.terminateIdle i known] }

/-- The deadline of a termination passes: SIGKILL follows SIGTERM, and then it stays unconfirmed. -/
def flightTimeout (i : Nat) (s : Pool T V) : Option (Pool T V) :=
  let slot := s.slots i
  if slot.closed then none
  else
    match slot.flight with
    | some .sigterm => some (s.setSlot i { slot with flight := some .sigkill })
    | some .sigkill => some (s.setSlot i { slot with flight := some (.done false) })
    | _ => none

/-! ## `execute` and `drain` -/

/-- The arguments of `execute`; `timeoutMs` is the deadline that applies, `aborted` says that the
signal is aborted already, `authorized` that `authorize` does not throw. -/
structure Call (T : Type) where
  roleId : JsString
  planId : Option JsString
  task : T
  idempotencyKey : JsString
  expectedRevision : Option JsString
  timeoutMs : Nat
  hasAuthorize : Bool
  hasSignal : Bool
  aborted : Bool
  authorized : Bool

/-- The functions that check and copy what a call brings; an error is its message. -/
structure Checks (T : Type) where
  canonicalStorageMutationRoleId : JsString → Except JsString JsString
  storageMutationRoleDirectory : JsString → Except JsString Unit
  canonicalStorageMutationPlanId : JsString → Except JsString JsString
  cloneSerializable : T → Except JsString T

def isKeyUnit (u : UInt16) : Bool :=
  (65 ≤ u && u ≤ 90) || (97 ≤ u && u ≤ 122) || (48 ≤ u && u ≤ 57) || u == 46 || u == 95 || u == 58 || u == 45

def validKey (key : JsString) : Bool := 1 ≤ key.length && key.length ≤ 200 && key.all isKeyUnit

def validRevision (revision : Option JsString) : Bool :=
  match revision with
  | none => true
  | some revision => !(JsString.trim revision).isEmpty && revision.length ≤ 256

def validateCall (checks : Checks T) (call : Call T) : Except JsString (JsString × Option JsString × T) := do
  let roleId ← checks.canonicalStorageMutationRoleId call.roleId
  checks.storageMutationRoleDirectory roleId
  let planId ← call.planId.mapM checks.canonicalStorageMutationPlanId
  let task ← checks.cloneSerializable call.task
  if !validKey call.idempotencyKey then throw (js "Storage mutation idempotencyKey is invalid.")
  if !validRevision call.expectedRevision then throw (js "Storage mutation expectedRevision is invalid.")
  return (roleId, planId, task)

/-- `execute` up to its call of `drain`. -/
def execute (checks : Checks T) (call : Call T) (s : Pool T V) : Pool T V :=
  let id := s.calls
  let s := { s with calls := id + 1 }
  if !s.accepting || s.stateValue = .stopping || s.stateValue = .stopped then s.rejectWith id stoppedError
  else
    match s.blockedSlot with
    | some slot => s.rejectWith id (blockedError (s.slots slot).pid)
    | none =>
      if call.hasSignal && call.aborted then s.rejectWith id abortedError
      else if call.hasAuthorize && !call.authorized then s.rejectWith id revokedError
      else
        match validateCall checks call with
        | .error message => s.rejectWith id { message }
        | .ok (roleId, planId, task) =>
          if (s.active.isSome || 0 < s.queue.length) && s.maxQueue ≤ s.queue.length then
            s.rejectWith id queueFullError
          else
            { s with
              queue := s.queue ++ [{
                id, roleId, planId, idempotencyKey := call.idempotencyKey,
                expectedRevision := call.expectedRevision, task, timeoutMs := call.timeoutMs,
                hasAuthorize := call.hasAuthorize, hasSignal := call.hasSignal }] }

/-- What `drain` meets: an aborted signal, an `authorize` that throws, a child that does not start,
a `send` that throws. -/
structure DrainInput where
  aborted : Bool
  authorized : Bool
  spawned : Option (Option Nat)
  sends : Bool
  nonce : JsString

/-- The child for the next request: the one that lives, or a new one. -/
def useChildSlot (spawned : Option (Option Nat)) (s : Pool T V) : Option (Nat × Pool T V) :=
  match s.childSlot.filter fun i ↦ !(s.slots i).closed with
  | some i => some (i, s)
  | none =>
    spawned.map fun pid ↦
      (s.spawnedChildren,
        { s.setSlot s.spawnedChildren { pid } with
          childSlot := some s.spawnedChildren
          spawnedChildren := s.spawnedChildren + 1 })

def requestOf (pending : PendingMutation T) (nonce : JsString) (s : Pool T V) : Request T where
  requestId := pending.idempotencyKey
  fence :=
    { applicationGenerationId := s.identity.applicationGenerationId,
      managerInstanceId := s.identity.managerInstanceId,
      storageGenerationLease := s.identity.storageGenerationLease,
      roleId := pending.roleId, planId := pending.planId }
  expectedRevision := pending.expectedRevision
  task := pending.task
  admissionNonce := if pending.hasAuthorize then some nonce else none

/-- The request of `pending` goes to the child. -/
def dispatch (pending : PendingMutation T) (slot : Nat) (input : DrainInput) (s : Pool T V) : Pool T V :=
  let request := s.requestOf pending input.nonce
  let s := { s with
    active := some { slot, pending, request, listening := pending.hasSignal }
    stateValue := .running
    sent := s.sent ++ [{ id := pending.id, slot, request }] }
  if input.sends then s else s.terminateActive sendError

/-- `drain`, and the call whose request it sends. -/
def drain (input : DrainInput) (s : Pool T V) : Option Nat × Pool T V :=
  if !s.accepting || s.active.isSome || s.blockedSlot.isSome || s.stateValue = .stopping ||
      s.stateValue = .stopped then (none, s)
  else
    match s.queue with
    | [] => (none, { s with stateValue := .idle })
    | pending :: queue =>
      let s := { s with queue }
      if pending.hasSignal && input.aborted then (none, s.rejectPending pending.id abortedError)
      else if pending.hasAuthorize && !input.authorized then
        (none, { s with refused := s.refused ++ [pending.id] }.rejectPending pending.id revokedError)
      else
        match s.useChildSlot input.spawned with
        | none => (none, s.rejectPending pending.id startError)
        | some (slot, s) => (some pending.id, s.dispatch pending slot input)

/-- The signal of a call is aborted: it leaves the queue, or its child is terminated. -/
def abort (id : Nat) (s : Pool T V) : Pool T V :=
  if s.queue.any fun pending ↦ pending.id = id && pending.hasSignal then
    { s with queue := s.queue.filter fun pending ↦ pending.id ≠ id }.rejectPending id abortedError
  else
    match s.active with
    | some active =>
      if active.pending.id = id && active.listening then s.terminateActive abortedError else s
    | none => s

/-- The timer of the active mutation. -/
def deadline (id : Nat) (s : Pool T V) : Pool T V :=
  match s.active with
  | some active =>
    if active.pending.id = id then s.terminateActive (timeoutError active.pending.timeoutMs) else s
  | none => s

/-- The callback of a `send` reports an error. -/
def sendFailed (id : Nat) (cause : MutationError) (s : Pool T V) : Pool T V :=
  match s.active with
  | some active => if active.pending.id = id then s.terminateActive cause else s
  | none => s

/-! ## Messages and the end of a child -/

/-- The first request of the slot that is not answered and that the message is for. -/
def unanswered (i : Nat) (m : Message V) (s : Pool T V) : Option (Sent T) :=
  s.sent.find? fun sent ↦ sent.slot = i && !sent.answered && m.isFor sent.request

/-- A child answers each request at most once: a response for a request of the child is for one that
it has not answered. -/
def answersOnce (i : Nat) (m : Message V) (s : Pool T V) : Bool :=
  m.body.isAdmission || (s.unanswered i m).isSome ||
    s.sent.all fun sent ↦ !(sent.slot = i && m.isFor sent.request)

def mark (id : Nat) (accepted : Bool) (s : Pool T V) : Pool T V :=
  { s with sent := s.sent.map fun sent ↦
      if sent.id = id then { sent with answered := true, accepted := sent.accepted || accepted } else sent }

/-- The pool takes the answer to the request of `answer` as the result of the active mutation. -/
def acceptAnswer (id : Nat) (result : Except MutationError V) (answer : Option Nat) (s : Pool T V) :
    Pool T V :=
  let s := match answer with
    | some request => s.mark request true
    | none => s
  s.settleActive id { result, answer }

/-- `handleMessage` for the active mutation, with the request that the message answers.  `authorized`
and `sends` are what `authorize` and the `send` of the decision do. -/
def handleActiveMessage (active : ActiveMutation T) (m : Message V) (answer : Option Nat)
    (authorized sends : Bool) (s : Pool T V) : Pool T V :=
  let id := active.pending.id
  if !m.isFor active.request then s.terminateActive fenceError
  else
    match m.body with
    | .admission isRequest commitAdmission sequence =>
      if !isRequest || !active.pending.hasAuthorize || !commitAdmission || sequence ≠ 1 ||
          active.admission.isSome then s.terminateActive fenceError
      else
        let s := { s with
          active := some { active with
            admission := some (if authorized then .allowed else .denied)
            listening := !authorized && active.listening }
          refused := if authorized then s.refused else s.refused ++ [id]
          decisions := s.decisions ++ [(id, authorized)] }
        if sends then s else s.terminateActive decisionError
    | body =>
      if active.pending.hasAuthorize && active.admission ≠ some .allowed then
        match active.admission, body with
        | some .denied, .failed _ (some code) =>
          if code = js "authorization_revoked" then s.acceptAnswer id (.error admissionRevokedError) answer
          else s.terminateActive fenceError
        | _, _ => s.terminateActive fenceError
      else
        match body with
        | .ok (some value) => s.acceptAnswer id (.ok value) answer
        -- `cloneSerializable(undefined)` throws out of the listener
        | .ok none => s
        | .failed (some message) code =>
          if (code.getD []).isEmpty then s.acceptAnswer id (.error (mutationResponseError message)) answer
          else s.terminateActive fenceError
        | _ => s.terminateActive fenceError

def handleMessage (i : Nat) (m : Message V) (authorized sends : Bool) (s : Pool T V) : Pool T V :=
  let answer := if m.body.isAdmission then none else (s.unanswered i m).map Sent.id
  let s := match answer with
    | some request => s.mark request false
    | none => s
  match s.active with
  | none => s
  | some active =>
    if active.slot ≠ i || active.terminating then s
    else s.handleActiveMessage active m answer authorized sends

def handleChildError (i : Nat) (s : Pool T V) : Pool T V :=
  if s.active.any fun active ↦ active.slot = i && !active.terminating then s.terminateActive processError
  else if !(s.slots i).closed && (s.slots i).flight.isNone then s.terminateIdleChild i
  else s

/-- The close of a child is observed: its termination is confirmed, and the native work that waited
for it is released. -/
def closeSlot (i : Nat) (s : Pool T V) : Pool T V :=
  let slot := s.slots i
  let flight := match slot.flight with
    | some .sigterm | some .sigkill => some (.done true)
    | flight => flight
  { s.setSlot i { slot with closed := true, flight } with
    childSlot := if s.childSlot = some i then none else s.childSlot
    blockedSlot := if s.blockedSlot = some i then none else s.blockedSlot
    released := s.released ++ (s.deferred.filter fun (d : Nat × Nat) ↦ d.2 = i).map Prod.fst
    deferred := s.deferred.filter fun (d : Nat × Nat) ↦ d.2 ≠ i }

/-- The active mutation fails with its child, unless the child was being terminated. -/
def exitActive (i : Nat) (error : MutationError) (s : Pool T V) : Pool T V :=
  match s.active with
  | some active =>
    if active.slot = i && !active.terminating then
      s.settleActive active.pending.id { result := .error error }
    else s
  | none => s

def becomeIdle (s : Pool T V) : Pool T V :=
  if s.accepting && s.blockedSlot.isNone && s.active.isNone then { s with stateValue := .idle } else s

def handleChildClose (i : Nat) (code : Option Nat) (signal : Option JsString) (s : Pool T V) : Pool T V :=
  let slot := s.slots i
  if slot.closed then s
  else ((s.closeSlot i).exitActive i (exitedError code signal slot.diagnosticBytes)).becomeIdle

def captureDiagnostic (i bytes : Nat) (s : Pool T V) : Pool T V :=
  let slot := s.slots i
  s.setSlot i { slot with diagnosticBytes := min (2 ^ 53 - 1) (slot.diagnosticBytes + bytes) }

/-! ## `stop` -/

inductive Answer where
  | none
  | sent (id : Nat)
  | stopResolved
  | stopRejected
deriving DecidableEq

/-- `stopOnce` throws. -/
def stopFails (s : Pool T V) : Answer × Pool T V := (.stopRejected, { s with stopFlight := false })

/-- The last check of `stopOnce`. -/
def stopEnd (s : Pool T V) : Answer × Pool T V :=
  if s.active.isSome || s.blockedSlot.isSome || s.childSlot.any fun i ↦ !(s.slots i).closed then s.stopFails
  else (.stopResolved, { s with stateValue := .stopped, lastErrorCode := none })

/-- `stopOnce` from the point where no mutation is active. -/
def stopChildren (s : Pool T V) : Answer × Pool T V :=
  match (s.blockedSlot.or s.childSlot).filter fun i ↦ !(s.slots i).closed with
  | some i =>
    let (known, s) := s.terminateAndConfirm i
    (.none, { s with tasks := s.tasks ++ [.stopChild i known] })
  | none => s.stopEnd

def stop (s : Pool T V) : Answer × Pool T V :=
  if s.stateValue = .stopped then (.stopResolved, s)
  else if s.stopFlight then (.none, s)
  else
    let s := { s with accepting := false, stateValue := .stopping, stopFlight := true }.rejectQueue poolStoppedError
    match s.active with
    | some active =>
      let s := { s with active := some { active with terminating := true, listening := false } }
      let (known, s) := s.terminateAndConfirm active.slot
      (.none, { s with tasks := s.tasks ++ [.stopActive active.pending.id active.slot known] })
    | none => s.stopChildren

/-- What follows the `await` of a termination. -/
def resume (task : Task) (confirmed : Bool) (s : Pool T V) : Answer × Pool T V :=
  let pid := (s.slots task.slot).pid
  match task, confirmed with
  | .terminateActive id _ cause _, true => (.none, s.settleActive id { result := .error cause })
  | .terminateActive id slot cause _, false =>
    (.none, ((s.blockTermination slot).settleActive id
      { result := .error (unconfirmedError cause pid) }).rejectQueue (unconfirmedError cause pid))
  | .terminateIdle .., true => (.none, s)
  | .terminateIdle slot _, false => (.none, (s.blockTermination slot).rejectQueue (idleUnconfirmedError pid))
  | .stopActive id _ _, true =>
    (s.settleActive id
      { result := .error { poolStoppedError with commitState := some .unknown } }).stopChildren
  | .stopActive id slot _, false =>
    ((s.blockTermination slot).settleActive id { result := .error (stopUnconfirmedError pid) }).stopFails
  | .stopChild .., true => s.stopEnd
  | .stopChild slot _, false => (s.blockTermination slot).stopFails

/-- Whether the termination that the task awaits was confirmed, once that is known. -/
def confirmation (task : Task) (s : Pool T V) : Option Bool :=
  match task.known, (s.slots task.slot).flight with
  | some confirmed, _ => some confirmed
  | none, some (.done confirmed) => some confirmed
  | none, _ => none

end Pool

/-! ## The system -/

inductive Event (T V : Type) where
  | execute (call : Pool.Call T)
  | drain (input : Pool.DrainInput)
  | abort (id : Nat)
  | deadline (id : Nat)
  | sendFailed (id : Nat)
  | decisionFailed (id : Nat)
  | message (slot : Nat) (m : Message V) (authorized sends : Bool)
  | childError (slot : Nat)
  | childClose (slot : Nat) (code : Option Nat) (signal : Option JsString)
  | diagnostic (slot bytes : Nat)
  | flightTimeout (slot : Nat)
  | stop
  | resume (index : Nat)

def step (checks : Pool.Checks T) (e : Event T V) (s : Pool T V) : Option (Pool.Answer × Pool T V) :=
  match e with
  | .execute call => some (.none, s.execute checks call)
  | .drain input =>
    let (id, s) := s.drain input
    some (match id with | some id => .sent id | none => .none, s)
  | .abort id => some (.none, s.abort id)
  | .deadline id => some (.none, s.deadline id)
  | .sendFailed id => some (.none, s.sendFailed id sendError)
  | .decisionFailed id => some (.none, s.sendFailed id decisionError)
  | .message slot m authorized sends =>
    if slot < s.spawnedChildren && s.answersOnce slot m then
      some (.none, s.handleMessage slot m authorized sends)
    else none
  | .childError slot => if slot < s.spawnedChildren then some (.none, s.handleChildError slot) else none
  | .childClose slot code signal =>
    if slot < s.spawnedChildren then some (.none, s.handleChildClose slot code signal) else none
  | .diagnostic slot bytes =>
    if slot < s.spawnedChildren then some (.none, s.captureDiagnostic slot bytes) else none
  | .flightTimeout slot => (s.flightTimeout slot).map (.none, ·)
  | .stop => some s.stop
  | .resume index =>
    (s.tasks[index]?).bind fun task ↦
      (s.confirmation task).map fun confirmed ↦
        { s with tasks := s.tasks.eraseIdx index }.resume task confirmed

def system (checks : Pool.Checks T) : System (Pool T V) (Event T V) Pool.Answer := ⟨step checks⟩

end RabiRoute.StorageMutationPool
