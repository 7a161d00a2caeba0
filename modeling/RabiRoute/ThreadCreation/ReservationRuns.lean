import RabiRoute.ThreadCreation.Reservation

/-!
# Runs of task creation

Calls with one creation key take turns in one process, which may die between two file steps and be started
again.  The reservation file is all that stays.  The log says which calls invoked `create()` and what
became of it.
-/

namespace RabiRoute.ThreadCreation

open Interleave

abbrev CallId := Nat

/-- The file of the creation key; a process that dies while it writes a new file leaves one that cannot be
read. -/
inductive ReservationFile where
  | absent
  | unreadable
  | stored (reservation : CodexThreadCreationReservation)

/-- `parseReservation` -/
def ReservationFile.parse : ReservationFile → Option CodexThreadCreationReservation
  | .stored reservation => some reservation
  | _ => none

inductive LogEvent where
  /-- The call invoked `create()`. -/
  | attempt (t : CallId)
  /-- `create()` of the call ended with a `CodexMetadataNotStartedError`, for a caller intent. -/
  | notStarted (t : CallId)
  /-- The reservation in which the call creates was found stale, and its task was confirmed missing. -/
  | foundMissing (t : CallId)
deriving DecidableEq

/-- The calls that invoked `create()`, the last one first. -/
def attempts (log : List LogEvent) : List CallId :=
  log.filterMap fun
    | .attempt t => some t
    | _ => none

/-- What a call saw when it read the reservation: whose creation it is, and how many there had been. -/
structure Sighting where
  creator : Option CallId := none
  attempts : Nat := 0

structure Store where
  file : ReservationFile := .absent
  /-- How often the clock was read. -/
  ticks : Nat := 0
  /-- The newest event first. -/
  log : List LogEvent := []
  /-- The call that wrote the last reservation in state `creating`. -/
  creator : Option CallId := none
  seen : CallId → Sighting := fun _ ↦ {}

/-- What the outside answers. -/
inductive Choice where
  | recovered (answer : Except JsString (Option CodexThreadCreateResult))
  | confirmed (answer : Except JsString Bool)
  | created (event : CreateEvent)

section

variable (calls : CallId → CreateParams) (clock : Nat → Int)

def Store.put (s : Store) (t : CallId) (reservation : CodexThreadCreationReservation) : Store :=
  { s with
    file := .stored reservation
    creator := if reservation.state = .creating then some t else s.creator }

def Store.note (s : Store) (event : LogEvent) : Store := { s with log := event :: s.log }

def exec (t : CallId) : (c : Command) → Store → c.Answer × Store
  | .readReservation, s =>
    (s.file.parse, { s with seen := fun u ↦ if u = t then ⟨s.creator, (attempts s.log).length⟩ else s.seen u })
  | .openExclusive, s =>
    match s.file with
    | .absent => (true, { s with file := .unreadable })
    | _ => (false, s)
  | .writeDescriptor reservation, s => ((), s.put t reservation)
  | .writeReservation reservation, s => ((), s.put t reservation)
  | .now, s => (clock s.ticks, { s with ticks := s.ticks + 1 })
  | .invokeCreate, s => ((), s.note (.attempt t))
  | .recoverCreated _, s => (.ok none, s)
  | .confirmMissing _, s => (.ok false, s)
  | .creation _, s => (.settled (.error ⟨false, []⟩), s)
  | .settlement _, s => (.error ⟨false, []⟩, s)

/-- What the log says of a `create()` that settles. -/
def settled (t : CallId) (outcome : Except CreateFailure CodexThreadCreateResult) (s : Store) : Store :=
  match outcome with
  | .error failure =>
    if (calls t).callerIntent.isSome && failure.metadataNotStarted then s.note (.notStarted t) else s
  | .ok _ => s

def answer (t : CallId) : (c : Command) → Choice → Store → Option (c.Answer × Store)
  | .recoverCreated _, .recovered answer, s => some (answer, s)
  | .confirmMissing _, .confirmed (.ok true), s =>
    some (.ok true, match (s.seen t).creator with
      | some creator => s.note (.foundMissing creator)
      | none => s)
  | .confirmMissing _, .confirmed answer, s => some (answer, s)
  | .creation _, .created (.settled outcome), s => some (.settled outcome, settled calls t outcome s)
  | .creation _, .created event, s => some (event, s)
  | .settlement _, .created (.settled outcome), s => some (outcome, settled calls t outcome s)
  | _, _, _ => none

def thread : Thread Store Command Command.Answer CallId Choice where
  awaits := Command.awaits
  exec := exec clock
  answer := answer calls
  restart := id

abbrev State := Process Store Command Command.Answer CallId CreationError CodexThreadCreateResult

def main (t : CallId) : Prog CodexThreadCreateResult := createCodexThreadWithReservation (calls t)

def system : Transitions.System State (Round CallId Choice) Unit := (thread calls clock).system (main calls)

def initial : State := ⟨{}, fun _ ↦ .idle⟩

end

/-! ## What is claimed -/

/-- The attempt is over for whoever comes next. -/
def Released (log : List LogEvent) (t : CallId) : Prop := .notStarted t ∈ log ∨ .foundMissing t ∈ log

/-- Each `create()` after the first is justified by an earlier one, no two by the same. -/
def Justified (log : List LogEvent) : Prop :=
  ∃ reason : CallId → CallId,
    (∀ later t earlier, log = later ++ .attempt t :: earlier → attempts earlier ≠ [] →
      reason t ∈ attempts earlier ∧ Released earlier (reason t)) ∧
    ∀ later t between u earlier, log = later ++ .attempt t :: (between ++ .attempt u :: earlier) →
      attempts earlier ≠ [] → reason t ≠ reason u

/-- The file says that the task was created. -/
def CompletedWith (file : ReservationFile) (result : CodexThreadCreateResult) : Prop :=
  ∃ reservation, file = .stored reservation ∧ reservation.state = .completed ∧ reservation.result = some result

/-! ## The condition on the answers -/

/-- The state and the result that a call writes over the reservation when it gets the answer. -/
def written (params : CreateParams) (now : Int) :
    Command → Choice → Option (CodexThreadCreationState × Option CodexThreadCreateResult)
  | .recoverCreated reservation, .recovered (.ok (some recovered)) =>
    if otherReceipt reservation recovered then none else some (.completed, some recovered)
  | .recoverCreated reservation, .recovered (.ok none) =>
    if isStale params reservation now then some (.uncertain, reservation.result) else none
  | .confirmMissing reservation, .confirmed (.ok true) => some (.failedBeforeCreate, reservation.result)
  | .confirmMissing reservation, .confirmed _ => some (.uncertain, reservation.result)
  | .creation current, .created (.stage stage _) => some (stage.state, current.result)
  | .creation current, .created (.settled outcome) | .settlement current, .created (.settled outcome) =>
    match outcome with
    | .ok result =>
      if otherTask params current result then some (.uncertain, current.result) else some (.completed, some result)
    | .error failure =>
      some (if params.callerIntent.isSome && failure.metadataNotStarted then .failedBeforeCreate else .uncertain,
        current.result)
  | _, _ => none

/-- What a call writes over a completed reservation is the same result. -/
def KeepsCompleted (file : ReservationFile)
    (written : Option (CodexThreadCreationState × Option CodexThreadCreateResult)) : Prop :=
  ∀ result, CompletedWith file result → ∀ w, written = some w → w = (.completed, some result)

/-- The reservation is still the creation that was found stale: nobody has invoked `create()` since. -/
def StillMissing (s : Store) (t : CallId) : Command → Choice → Prop
  | .confirmMissing _, .confirmed (.ok true) => (attempts s.log).length = (s.seen t).attempts
  | _, _ => True

def Undisturbed (calls : CallId → CreateParams) (clock : Nat → Int) (cfg : State) : Turn CallId Choice → Prop
  | .start _ => True
  | .answer t choice =>
    match cfg.calls t with
    | .live (.step c _) =>
      KeepsCompleted cfg.shared.file (written (calls t) (clock cfg.shared.ticks) c choice) ∧
        StillMissing cfg.shared t c choice
    | _ => True

/-- Every answer comes in time. -/
def InTime (calls : CallId → CreateParams) (clock : Nat → Int) : Round CallId Choice → State → Prop
  | .run turn, cfg => Undisturbed calls clock cfg turn
  | .die none, _ => True
  | .die (some (turn, _)), cfg => Undisturbed calls clock cfg turn

end RabiRoute.ThreadCreation
