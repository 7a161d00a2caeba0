import RabiRoute.Shared.JsString
import RabiRoute.Transitions.System

/-!
# The watch broker

`ManagerWatchBroker` as a state that takes one callback after another.  What a promise, a timer or a microtask
goes on with is an event of its own, so events come in any order that their own conditions allow.
-/

namespace RabiRoute.WatchBroker

inductive BrokerState where
  | initializing
  | ready
  | degraded
  | closing
  | closed
deriving DecidableEq

structure ManagerWatchBrokerStatus where
  state : BrokerState
  isPartial : Bool
  errors : List JsString
  attempts : Nat
  timeouts : Nat
  restarts : Nat
  activeWorkerPid : Option Nat

/-- `terminateAttempt`: the deadline that it awaits, or what it resolved with. -/
inductive Termination where
  | notStarted
  | sigterm
  | sigkill
  | done (confirmed : Bool)
deriving DecidableEq

/-- What `handleTerminationFailure` registered on `attempt.closed`. -/
inductive ClosedHandler where
  | absent
  | registered
  | ran
deriving DecidableEq

structure Attempt where
  pid : Option Nat
  /-- `attempt.closed` has resolved. -/
  closed : Bool
  termination : Termination
  closedHandler : ClosedHandler

/-- `createAttempt`. -/
def Attempt.created (pid : Option Nat) : Attempt := ⟨pid, false, .notStarted, .absent⟩

/-- What the running `refresh` awaits; an attempt is known by its place. -/
inductive Refresh where
  | idle
  /-- The result, or the attempt deadline. -/
  | racing (attempt : Nat)
  /-- `onSnapshot`. -/
  | snapshot (attempt : Nat) (isPartial : Bool) (errors : List JsString)
  /-- `closesWithin` of `closeCompletedAttempt`. -/
  | closing (attempt : Nat)
  | terminating (attempt : Nat)
  /-- It has returned, and its `finally` callback is still to run. -/
  | ended
deriving DecidableEq

def Refresh.attempt : Refresh → Option Nat
  | .racing attempt | .snapshot attempt _ _ | .closing attempt | .terminating attempt => some attempt
  | .idle | .ended => none

structure Options where
  retryDelayMs : Nat
  remotePollIntervalMs : Nat

structure ManagerWatchBroker where
  currentStatus : ManagerWatchBrokerStatus
  activeAttempt : Option Nat
  /-- Its delay. -/
  pollTimer : Option Nat
  /-- The reason that it gives. -/
  debounceTimer : Option JsString
  running : Bool
  refresh : Refresh
  queuedReason : Option JsString
  started : Bool
  closedFlag : Bool
  restartPending : Bool
  consecutiveFailures : Nat
  terminationBlockedAttempt : Option Nat
  /-- The attempt that `finishClose` awaits. -/
  closeCompletion : Option Nat
  attempts : List Attempt
  /-- The requests that were queued as microtasks. -/
  microtasks : List JsString

def initialStatus : ManagerWatchBrokerStatus where
  state := .initializing
  isPartial := true
  errors := []
  attempts := 0
  timeouts := 0
  restarts := 0
  activeWorkerPid := none

def ManagerWatchBroker.initial : ManagerWatchBroker where
  currentStatus := initialStatus
  activeAttempt := none
  pollTimer := none
  debounceTimer := none
  running := false
  refresh := .idle
  queuedReason := none
  started := false
  closedFlag := false
  restartPending := false
  consecutiveFailures := 0
  terminationBlockedAttempt := none
  closeCompletion := none
  attempts := []
  microtasks := []

namespace ManagerWatchBroker

variable (b : ManagerWatchBroker)

def setAttempt (attempt : Nat) (f : Attempt → Attempt) : ManagerWatchBroker :=
  { b with attempts := b.attempts.modify attempt f }

def isDegraded : Bool := decide (b.currentStatus.state = .degraded)

/-! ## Requests -/

/-- `refresh`, to its first `await`. -/
def startRefresh (pid : Option Nat) : ManagerWatchBroker :=
  { b with
    refresh := .racing b.attempts.length
    restartPending := false
    activeAttempt := some b.attempts.length
    attempts := b.attempts ++ [.created pid]
    currentStatus := { b.currentStatus with
      restarts := if b.restartPending then b.currentStatus.restarts + 1 else b.currentStatus.restarts
      attempts := b.currentStatus.attempts + 1
      activeWorkerPid := pid } }

def requestRefresh (reason : JsString) (pid : Option Nat) : ManagerWatchBroker :=
  if b.closedFlag then b
  else if b.pollTimer.isSome && b.isDegraded then { b with queuedReason := some reason }
  else
    let b := { b with pollTimer := none }
    if b.terminationBlockedAttempt.isSome then { b with queuedReason := some reason }
    else if b.running then { b with queuedReason := some reason }
    else { b with running := true }.startRefresh pid

def start (pid : Option Nat) : ManagerWatchBroker :=
  if b.started || b.closedFlag then b
  else
    let b := { b with
      started := true
      currentStatus := { b.currentStatus with state := .initializing, isPartial := true, errors := [] } }
    b.requestRefresh (js "during watch initialization") pid

/-- The delay before the next attempt. -/
def pollDelay (options : Options) : Nat :=
  if b.isDegraded then min 30000 (options.retryDelayMs * 2 ^ min 6 (b.consecutiveFailures - 1))
  else options.remotePollIntervalMs

/-- The `finally` callback of `requestRefresh`. -/
def refreshSettled (options : Options) : ManagerWatchBroker :=
  let b := { b with running := false, refresh := .idle }
  if b.closedFlag || b.terminationBlockedAttempt.isSome then b
  else
    let queued := b.queuedReason.filter fun reason ↦ !reason.isEmpty
    let b := { b with queuedReason := none }
    match queued with
    | some reason =>
      if b.isDegraded then { b with pollTimer := some (b.pollDelay options) }
      else { b with microtasks := b.microtasks ++ [reason] }
    | none => { b with pollTimer := some (b.pollDelay options) }

/-! ## Terminations -/

/-- `terminateAttempt`, to its first `await`; one that was started before is shared. -/
def terminateAttempt (attempt : Nat) : ManagerWatchBroker :=
  b.setAttempt attempt fun a ↦
    { a with termination := if a.termination = .notStarted then .sigterm else a.termination }

def pidText : Option Nat → JsString
  | some pid => js (toString pid)
  | none => js "unknown"

def terminationFailed : JsString := js "termination_failed:"

def handleTerminationFailure (attempt : Nat) : ManagerWatchBroker :=
  let pid := (b.attempts[attempt]?).bind Attempt.pid
  let b := { b with
    terminationBlockedAttempt := some attempt
    currentStatus := { b.currentStatus with
      state := .degraded
      isPartial := true
      activeWorkerPid := pid
      errors := (b.currentStatus.errors.filter fun error ↦ !terminationFailed.isPrefixOf error) ++
        [terminationFailed ++ js " Manager watch snapshot worker " ++ pidText pid ++
          js " did not close after SIGKILL."] } }
  b.setAttempt attempt fun a ↦
    { a with closedHandler := if a.closedHandler = .absent then .registered else a.closedHandler }

def publishClosed : ManagerWatchBroker :=
  { b with
    currentStatus := { b.currentStatus with
      state := .closed, isPartial := false, errors := [], activeWorkerPid := none } }

/-- `activeAttempt = undefined`, and its status. -/
def releaseAttempt (attempt : Nat) : ManagerWatchBroker :=
  if b.activeAttempt = some attempt then
    { b with activeAttempt := none, currentStatus := { b.currentStatus with activeWorkerPid := none } }
  else b

/-- What was registered on `attempt.closed`. -/
def runClosedHandler (attempt : Nat) : ManagerWatchBroker :=
  let b := b.setAttempt attempt fun a ↦ { a with closedHandler := .ran }
  if b.terminationBlockedAttempt ≠ some attempt then b
  else
    let b := { b with terminationBlockedAttempt := none }.releaseAttempt attempt
    if b.closedFlag then b.publishClosed
    else
      { b with
        queuedReason := none
        microtasks := b.microtasks ++ [b.queuedReason.getD (js "after delayed worker termination confirmation")] }

/-! ## The rest of `refresh` -/

/-- The `finally` block, once the attempt is confirmed to have ended or not. -/
def finishRefresh (attempt : Nat) (confirmed : Bool) : ManagerWatchBroker :=
  let b := { b with refresh := .ended }
  if confirmed then b.releaseAttempt attempt
  else if b.closedFlag then b
  else b.handleTerminationFailure attempt

/-- The `catch` block. -/
def refreshFailed (error : JsString) (timedOut : Bool) : ManagerWatchBroker :=
  if b.closedFlag then b
  else
    { b with
      consecutiveFailures := b.consecutiveFailures + 1
      restartPending := true
      currentStatus := { b.currentStatus with
        state := .degraded
        isPartial := true
        errors := [error]
        timeouts := if timedOut then b.currentStatus.timeouts + 1 else b.currentStatus.timeouts } }

/-- The result was not received. -/
def attemptFailed (attempt : Nat) (error : JsString) (timedOut : Bool) : ManagerWatchBroker :=
  { (b.refreshFailed error timedOut).terminateAttempt attempt with refresh := .terminating attempt }

/-- The result was received; the local watchers may fail with errors of their own. -/
def resultReceived (attempt : Nat) (isPartial : Bool) (errors localErrors : List JsString) : ManagerWatchBroker :=
  if b.closedFlag then { b with refresh := .closing attempt }
  else { b with refresh := .snapshot attempt isPartial (errors ++ localErrors) }

/-- `onSnapshot` has resolved. -/
def snapshotTaken (attempt : Nat) (isPartial : Bool) (errors : List JsString) : ManagerWatchBroker :=
  let b := { b with refresh := .closing attempt }
  if b.closedFlag then b
  else
    let failed := isPartial || !errors.isEmpty
    { b with
      consecutiveFailures := if failed then b.consecutiveFailures + 1 else 0
      currentStatus := { b.currentStatus with
        state := if failed then .degraded else .ready
        isPartial := failed
        errors } }

/-! ## Closing -/

def close : ManagerWatchBroker :=
  if b.closedFlag then b
  else
    let b := { b with closedFlag := true, queuedReason := none, pollTimer := none, debounceTimer := none }
    match b.activeAttempt with
    | none => b.publishClosed
    | some attempt =>
      let b := { b with
        currentStatus := { b.currentStatus with
          state := .closing
          isPartial := true
          activeWorkerPid := (b.attempts[attempt]?).bind Attempt.pid }
        closeCompletion := some attempt }
      b.terminateAttempt attempt

/-- The rest of `finishClose`. -/
def finishClose (attempt : Nat) (confirmed : Bool) : ManagerWatchBroker :=
  let b := { b with closeCompletion := none }
  if confirmed then
    { b with
      activeAttempt := if b.activeAttempt = some attempt then none else b.activeAttempt
      terminationBlockedAttempt :=
        if b.terminationBlockedAttempt = some attempt then none else b.terminationBlockedAttempt }.publishClosed
  else b.handleTerminationFailure attempt

end ManagerWatchBroker

/-! ## Events -/

/-- An event that may make an attempt says which process it gets. -/
inductive Event where
  | start (pid : Option Nat)
  | requestRefresh (reason : JsString) (pid : Option Nat)
  | close
  | microtask (place : Nat) (pid : Option Nat)
  | pollTimer (pid : Option Nat)
  | debounceTimer (pid : Option Nat)
  /-- A watcher reports an event that its rule matches. -/
  | watchEvent (reason : JsString)
  | watchError (message : JsString)
  | closed (attempt : Nat)
  | closedHandler (attempt : Nat)
  | result (isPartial : Bool) (errors localErrors : List JsString)
  | rejected (error : JsString)
  | timedOut (error : JsString)
  | snapshotTaken
  | snapshotRejected (error : JsString)
  /-- `closesWithin` of a completed attempt. -/
  | closeAwaited (confirmed : Bool)
  /-- `closesWithin` of `terminateAttempt`. -/
  | terminationDeadline (attempt : Nat) (confirmed : Bool)
  | terminationAwaited
  | refreshSettled
  | closeCompleted

namespace ManagerWatchBroker

variable (b : ManagerWatchBroker)

def hasClosed (attempt : Nat) : Bool := (b.attempts[attempt]?).any (·.closed)

/-- A deadline can be met only when the attempt has closed. -/
def mayConfirm (attempt : Nat) (confirmed : Bool) : Bool := !confirmed || b.hasClosed attempt

def terminationOutcome (attempt : Nat) : Option Bool :=
  (b.attempts[attempt]?).bind fun a ↦
    match a.termination with
    | .done confirmed => some confirmed
    | _ => none

/-- What `terminateAttempt` goes on with after a deadline. -/
def passDeadline (attempt : Nat) (confirmed : Bool) : Option ManagerWatchBroker :=
  match b.attempts[attempt]? with
  | none => none
  | some a =>
    match a.termination with
    | .sigterm => some (b.setAttempt attempt fun a ↦
      { a with termination := if confirmed then .done true else .sigkill })
    | .sigkill => some (b.setAttempt attempt fun a ↦ { a with termination := .done confirmed })
    | _ => none

def step (options : Options) : Event → Option ManagerWatchBroker
  | .start pid => some (b.start pid)
  | .requestRefresh reason pid => some (b.requestRefresh reason pid)
  | .close => some b.close
  | .microtask place pid =>
    (b.microtasks[place]?).map fun reason ↦
      { b with microtasks := b.microtasks.eraseIdx place }.requestRefresh reason pid
  | .pollTimer pid =>
    b.pollTimer.map fun _ ↦
      { b with pollTimer := none }.requestRefresh (js "during bounded watch polling") pid
  | .debounceTimer pid =>
    b.debounceTimer.map fun reason ↦ { b with debounceTimer := none }.requestRefresh reason pid
  | .watchEvent reason => some { b with debounceTimer := some reason }
  | .watchError message =>
    if b.closedFlag then some b
    else
      some { b with
        debounceTimer := some (js "after native watch error")
        currentStatus := { b.currentStatus with state := .degraded, isPartial := true, errors := [message] } }
  | .closed attempt =>
    if attempt < b.attempts.length then some (b.setAttempt attempt fun a ↦ { a with closed := true })
    else none
  | .closedHandler attempt =>
    if (b.attempts[attempt]?).any fun a ↦ a.closed && decide (a.closedHandler = .registered) then
      some (b.runClosedHandler attempt)
    else none
  | .result isPartial errors localErrors =>
    match b.refresh with
    | .racing attempt => some (b.resultReceived attempt isPartial errors localErrors)
    | _ => none
  | .rejected error =>
    match b.refresh with
    | .racing attempt => some (b.attemptFailed attempt error false)
    | _ => none
  | .timedOut error =>
    match b.refresh with
    | .racing attempt => some (b.attemptFailed attempt error true)
    | _ => none
  | .snapshotTaken =>
    match b.refresh with
    | .snapshot attempt isPartial errors => some (b.snapshotTaken attempt isPartial errors)
    | _ => none
  | .snapshotRejected error =>
    match b.refresh with
    | .snapshot attempt _ _ => some { b.refreshFailed error false with refresh := .closing attempt }
    | _ => none
  | .closeAwaited confirmed =>
    match b.refresh with
    | .closing attempt =>
      if !b.mayConfirm attempt confirmed then none
      else if confirmed then some (b.finishRefresh attempt true)
      else some { b.terminateAttempt attempt with refresh := .terminating attempt }
    | _ => none
  | .terminationDeadline attempt confirmed =>
    if b.mayConfirm attempt confirmed then b.passDeadline attempt confirmed else none
  | .terminationAwaited =>
    match b.refresh with
    | .terminating attempt => (b.terminationOutcome attempt).map (b.finishRefresh attempt)
    | _ => none
  | .refreshSettled => if b.refresh = .ended then some (b.refreshSettled options) else none
  | .closeCompleted =>
    b.closeCompletion.bind fun attempt ↦ (b.terminationOutcome attempt).map (b.finishClose attempt)

end ManagerWatchBroker

def system (options : Options) : Transitions.System ManagerWatchBroker Event Unit where
  step e b := (b.step options e).map fun b ↦ ((), b)

end RabiRoute.WatchBroker
