import RabiRoute.Interleave.EventLoop
import RabiRoute.AgentRequests.Party

/-!
# Reservations of Codex tasks

`createCodexThreadWithReservation` as a program of file steps and awaited callbacks.  A time is its
milliseconds: `toISOString` and `Date.parse` take the one to the other and back.
-/

namespace RabiRoute.ThreadCreation

open Interleave
open AgentRequests (presentText)

inductive CodexThreadCreationState where
  | reserved
  | creating
  | threadCreated
  | naming
  | initialTurn
  | completed
  | uncertain
  | failedBeforeCreate
deriving DecidableEq

inductive InitialTurnStatus where
  | notRequested
  | started
  | failed
deriving DecidableEq

structure CodexThreadCreateResult where
  id : JsString
  title : JsString
  updatedAt : JsString
  cwd : Option JsString := none
  archived : Option Bool := none
  source : JsString
  initialTurnStatus : InitialTurnStatus
  initialTurnError : Option JsString := none
deriving DecidableEq

/-- The texts of which a creation key is the JSON array. -/
abbrev CreationKey := List JsString

structure CodexThreadCreationReservation where
  key : CreationKey
  callerIntentHash : Option JsString := none
  title : JsString
  workspace : JsString
  state : CodexThreadCreationState
  createdAt : Int
  updatedAt : Int
  threadId : Option JsString := none
  result : Option CodexThreadCreateResult := none
  error : Option JsString := none

structure CodexCreationCallerIntent where
  key : JsString
  hash : JsString
deriving DecidableEq

/-- The parameters of a call; `workspace` is its canonical path, and `recoverCreated` and `confirmMissing`
say whether there is such a callback.  `stages` bounds the stages that `create` reports. -/
structure CreateParams where
  title : JsString
  workspace : JsString
  replacementForThreadId : JsString := []
  callerIntent : Option CodexCreationCallerIntent := none
  recoverCreated : Bool := false
  confirmMissing : Bool := false
  staleCreatingMs : Option Int := none
  stages : Nat

def CodexThreadCreationState.text : CodexThreadCreationState → JsString
  | .reserved => js "reserved"
  | .creating => js "creating"
  | .threadCreated => js "thread_created"
  | .naming => js "naming"
  | .initialTurn => js "initial_turn"
  | .completed => js "completed"
  | .uncertain => js "uncertain"
  | .failedBeforeCreate => js "failed_before_create"

inductive CreationError where
  | intentConflict
  | unreadable
  | receiptMismatch
  | recovery (message : JsString)
  | metadataNotStarted (message : JsString)
  | blocked (reservation : CodexThreadCreationReservation)

/-- The message of a `CodexThreadCreationBlockedError`. -/
def blockedMessage (reservation : CodexThreadCreationReservation) : JsString :=
  if reservation.state = .uncertain then
    js "Codex Desktop task creation result is uncertain for " ++ reservation.title ++
      js "; do not create again automatically."
  else
    js "Codex Desktop task creation is already " ++ reservation.state.text ++ js " for " ++ reservation.title ++
      js "; query the existing reservation before retrying."

/-! ## Commands -/

/-- How `create` fails: with a `CodexMetadataNotStartedError` or with another error. -/
structure CreateFailure where
  metadataNotStarted : Bool
  message : JsString

/-- The stages that `onStage` takes. -/
inductive Stage where
  | threadCreated
  | naming
  | initialTurn

def Stage.state : Stage → CodexThreadCreationState
  | .threadCreated => .threadCreated
  | .naming => .naming
  | .initialTurn => .initialTurn

inductive CreateEvent where
  | stage (stage : Stage) (threadId : JsString)
  | settled (outcome : Except CreateFailure CodexThreadCreateResult)

/-- The last four await an answer; they say which copy of the reservation the call keeps meanwhile. -/
inductive Command where
  | readReservation
  | openExclusive
  | writeDescriptor (reservation : CodexThreadCreationReservation)
  | writeReservation (reservation : CodexThreadCreationReservation)
  | now
  | invokeCreate
  | recoverCreated (reservation : CodexThreadCreationReservation)
  | confirmMissing (reservation : CodexThreadCreationReservation)
  | creation (current : CodexThreadCreationReservation)
  | settlement (current : CodexThreadCreationReservation)

abbrev Command.Answer : Command → Type
  | .readReservation => Option CodexThreadCreationReservation
  | .openExclusive => Bool
  | .now => Int
  | .recoverCreated _ => Except JsString (Option CodexThreadCreateResult)
  | .confirmMissing _ => Except JsString Bool
  | .creation _ => CreateEvent
  | .settlement _ => Except CreateFailure CodexThreadCreateResult
  | _ => Unit

def Command.awaits : Command → Bool
  | .recoverCreated _ | .confirmMissing _ | .creation _ | .settlement _ => true
  | _ => false

abbrev Prog := Program Command Command.Answer CreationError

def sys (c : Command) : Prog c.Answer := Program.perform c

/-! ## Reserving -/

def creationKey (params : CreateParams) : CreationKey :=
  match params.callerIntent with
  | some callerIntent => [js "codex-desktop-caller", callerIntent.key]
  | none => [js "codex-desktop", params.workspace, params.title, params.replacementForThreadId]

/-- The reservation belongs to another intent of the caller. -/
def intentConflict (params : CreateParams) (existing : CodexThreadCreationReservation) : Bool :=
  params.callerIntent.any fun callerIntent ↦
    decide (existing.key ≠ creationKey params ∨ existing.callerIntentHash ≠ some callerIntent.hash)

def newReservation (params : CreateParams) (existing : Option CodexThreadCreationReservation) (now : Int) :
    CodexThreadCreationReservation where
  key := creationKey params
  callerIntentHash := params.callerIntent.map (·.hash)
  title := params.title
  workspace := params.workspace
  state := .reserved
  createdAt := (existing.map (·.createdAt)).getD now
  updatedAt := now

/-- What `reserveCreation` answers. -/
structure Reserved where
  created : Bool
  reservation : CodexThreadCreationReservation

/-- The file was there although no reservation was read. -/
def replayReservation (params : CreateParams) : Prog Reserved := do
  match ← sys .readReservation with
  | none => .raise .unreadable
  | some raced => if intentConflict params raced then .raise .intentConflict else return ⟨false, raced⟩

def openReservation (params : CreateParams) (now : Int) : Prog Reserved := do
  if ← sys .openExclusive then
    sys (.writeDescriptor (newReservation params none now))
    return ⟨true, newReservation params none now⟩
  else replayReservation params

def reserveCreation (params : CreateParams) : Prog Reserved := do
  match ← sys .readReservation with
  | none => openReservation params (← sys .now)
  | some existing =>
    if intentConflict params existing then .raise .intentConflict
    else if existing.state ≠ .failedBeforeCreate then return ⟨false, existing⟩
    else
      let reservation := newReservation params (some existing) (← sys .now)
      sys (.writeReservation reservation)
      return ⟨true, reservation⟩

/-! ## Creating -/

/-- `create` ended with an error, or with another task than the one that it reported. -/
def failCreation (params : CreateParams) (current : CodexThreadCreationReservation) (failure : CreateFailure) :
    Prog CodexThreadCreateResult := do
  let notStarted := params.callerIntent.isSome && failure.metadataNotStarted
  let updatedAt ← sys .now
  let current := { current with
    state := if notStarted then .failedBeforeCreate else .uncertain
    error := some failure.message
    updatedAt := updatedAt }
  sys (.writeReservation current)
  .raise (if notStarted then .metadataNotStarted failure.message else .blocked current)

/-- The task that `create` reported is another one than `result`. -/
def otherTask (params : CreateParams) (current : CodexThreadCreationReservation) (result : CodexThreadCreateResult) :
    Bool :=
  params.callerIntent.isSome && (presentText current.threadId).any fun threadId ↦ decide (threadId ≠ result.id)

def completeCreation (current : CodexThreadCreationReservation) (result : CodexThreadCreateResult) :
    Prog CodexThreadCreateResult := do
  let updatedAt ← sys .now
  sys (.writeReservation { current with
    state := .completed, threadId := some result.id, result := some result, error := none, updatedAt := updatedAt })
  return result

def finishCreation (params : CreateParams) (current : CodexThreadCreationReservation) :
    Except CreateFailure CodexThreadCreateResult → Prog CodexThreadCreateResult
  | .error failure => failCreation params current failure
  | .ok result =>
    if otherTask params current result then
      failCreation params current ⟨false, js "Native metadata result differs from the original created task."⟩
    else completeCreation current result

def runCreate (params : CreateParams) : Nat → CodexThreadCreationReservation → Prog CodexThreadCreateResult
  | 0, current => do finishCreation params current (← sys (.settlement current))
  | stages + 1, current => do
      match ← sys (.creation current) with
      | .settled outcome => finishCreation params current outcome
      | .stage stage threadId =>
        let updatedAt ← sys .now
        let current := { current with state := stage.state, threadId := some threadId, updatedAt := updatedAt }
        sys (.writeReservation current)
        runCreate params stages current

/-- From the reservation that the call made to `create`. -/
def createReserved (params : CreateParams) (reservation : CodexThreadCreationReservation) :
    Prog CodexThreadCreateResult := do
  let updatedAt ← sys .now
  let current := { reservation with state := .creating, updatedAt := updatedAt }
  sys (.writeReservation current)
  sys .invokeCreate
  runCreate params params.stages current

/-! ## A reservation that is there -/

def defaultStaleCreatingMs : Int := 5 * 60 * 1000

def isStale (params : CreateParams) (reservation : CodexThreadCreationReservation) (now : Int) : Bool :=
  decide (reservation.state = .creating) &&
    decide (params.staleCreatingMs.getD defaultStaleCreatingMs ≤ now - reservation.updatedAt)

def staleError (reservation : CodexThreadCreationReservation) (evidenceError : JsString) : JsString :=
  if (presentText reservation.threadId).isSome then
    js "The stale creation reservation already contains a threadId; do not create another task automatically."
  else if !evidenceError.isEmpty then
    js "The Desktop state database could not confirm that the task is missing: " ++ evidenceError
  else js "The Desktop state database did not authoritatively confirm that the task is missing."

def markUncertain (reservation : CodexThreadCreationReservation) (now : Int) (evidenceError : JsString) :
    Prog CodexThreadCreateResult := do
  let uncertain := { reservation with
    state := .uncertain, error := some (staleError reservation evidenceError), updatedAt := now }
  sys (.writeReservation uncertain)
  .raise (.blocked uncertain)

def missingError : JsString :=
  js "The stale creating reservation had no threadId and the Desktop state database confirmed that no matching task exists."

def recreateMissing (params : CreateParams) (reservation : CodexThreadCreationReservation) (now : Int) :
    Prog CodexThreadCreateResult := do
  sys (.writeReservation { reservation with
    state := .failedBeforeCreate, error := some missingError, updatedAt := now })
  let reserved ← reserveCreation params
  if reserved.created then createReserved params reserved.reservation else .raise (.blocked reserved.reservation)

def settleStale (params : CreateParams) (reservation : CodexThreadCreationReservation) (now : Int) :
    Except JsString Bool → Prog CodexThreadCreateResult
  | .ok true => recreateMissing params reservation now
  | .ok false => markUncertain reservation now []
  | .error evidenceError => markUncertain reservation now evidenceError

def checkStale (params : CreateParams) (reservation : CodexThreadCreationReservation) :
    Prog CodexThreadCreateResult := do
  let now ← sys .now
  if isStale params reservation now then
    if params.callerIntent.isNone && (presentText reservation.threadId).isNone && params.confirmMissing then
      settleStale params reservation now (← sys (.confirmMissing reservation))
    else markUncertain reservation now []
  else .raise (.blocked reservation)

/-- The receipt of the original creation names another task. -/
def otherReceipt (reservation : CodexThreadCreationReservation) (recovered : CodexThreadCreateResult) : Bool :=
  (presentText reservation.threadId).any fun threadId ↦ decide (threadId ≠ recovered.id)

def completeRecovered (reservation : CodexThreadCreationReservation) (recovered : CodexThreadCreateResult) :
    Prog CodexThreadCreateResult := do
  if otherReceipt reservation recovered then .raise .receiptMismatch
  else
    let updatedAt ← sys .now
    sys (.writeReservation { reservation with
      state := .completed, threadId := some recovered.id, result := some recovered, error := none,
      updatedAt := updatedAt })
    return recovered

def settleRecovery (params : CreateParams) (reservation : CodexThreadCreationReservation) :
    Except JsString (Option CodexThreadCreateResult) → Prog CodexThreadCreateResult
  | .error message => .raise (.recovery message)
  | .ok (some recovered) => completeRecovered reservation recovered
  | .ok none => checkStale params reservation

def canRecover (params : CreateParams) (reservation : CodexThreadCreationReservation) : Bool :=
  params.callerIntent.isSome && params.recoverCreated &&
    decide (reservation.state ∈ [CodexThreadCreationState.creating, .threadCreated, .naming, .uncertain])

def answerExisting (params : CreateParams) (reservation : CodexThreadCreationReservation) :
    Prog CodexThreadCreateResult :=
  match if reservation.state = .completed then reservation.result else none with
  | some result => return result
  | none => do
      if canRecover params reservation then settleRecovery params reservation (← sys (.recoverCreated reservation))
      else checkStale params reservation

def createCodexThreadWithReservation (params : CreateParams) : Prog CodexThreadCreateResult := do
  let reserved ← reserveCreation params
  if reserved.created then createReserved params reserved.reservation else answerExisting params reserved.reservation

end RabiRoute.ThreadCreation
