import RabiRoute.Collections.InsertionMap
import RabiRoute.Shared.JsString
import RabiRoute.Transitions.System

/-!
# The lock with keys

`KeyedAsyncLock` one microtask at a time.  A call of `run` chains two promises to the tail that it finds: its own
`tail`, and the one that it awaits before `operation`.  A job of the queue moves one of them to its next stage.
-/

namespace RabiRoute.KeyedAsyncLock

open Collections Transitions

/-! ## The calls and the queue -/

/-- Where the promise `tail` of a call stands. -/
inductive Tail where
  /-- `previous` has not settled. -/
  | blocked
  /-- The handler of `previous.catch` is queued. -/
  | catching
  /-- The handler `() => current` is queued. -/
  | returning
  /-- The job is queued that makes the tail wait for `current`. -/
  | adopting
  /-- The tail waits for `current`. -/
  | adopted
  /-- `current` is resolved, and the job that resolves the tail is queued. -/
  | settling
  | resolved
deriving DecidableEq

/-- Where the body of `run` stands. -/
inductive Phase where
  /-- `previous` has not settled. -/
  | blocked
  /-- The handler of the awaited `previous.catch` is queued. -/
  | catching
  /-- The call of `operation` is queued. -/
  | resuming
  /-- `operation` has been called, and its promise is pending. -/
  | running
  /-- The promise of `operation` has settled, and the `finally` block is queued. -/
  | settled
  /-- `current` is resolved, and the promise of `run` has settled. -/
  | finished
deriving DecidableEq

inductive Outcome where
  | resolved
  | rejected
deriving DecidableEq

structure Call where
  key : JsString
  /-- The call whose tail is `previous`, `none` for `Promise.resolve()`. -/
  previous : Option Nat
  tail : Tail
  phase : Phase
  /-- What `operation` has settled with. -/
  operation : Option Outcome := none
  /-- What `run` has settled with. -/
  result : Option Outcome := none

/-- A microtask of the chain of `tail` or of the body of the call with this number. -/
inductive Job where
  | tail (i : Nat)
  | body (i : Nat)

/-- The calls have the numbers of their order. -/
structure State where
  calls : List Call
  tails : InsertionMap JsString Nat
  queue : List Job

def State.empty : State := ⟨[], InsertionMap.empty, []⟩

def Tail.isQueued : Tail → Bool
  | .catching | .returning | .adopting | .settling => true
  | .blocked | .adopted | .resolved => false

def Phase.isQueued : Phase → Bool
  | .catching | .resuming | .settled => true
  | .blocked | .running | .finished => false

/-- `operation` has been called. -/
def Phase.hasStarted : Phase → Bool
  | .running | .settled | .finished => true
  | .blocked | .catching | .resuming => false

/-- `previous` is a tail that is not resolved; on a resolved promise a handler is queued at once. -/
def isPending (calls : List Call) : Option Nat → Bool
  | none => false
  | some p => (calls[p]?).any fun c ↦ c.tail ≠ .resolved

/-! ## The steps -/

namespace State

/-- Put the call back and queue jobs. -/
def put (s : State) (i : Nat) (c : Call) (jobs : List Job) : State :=
  { s with calls := s.calls.set i c, queue := s.queue ++ jobs }

/-- `run` up to its first `await`. -/
def enter (s : State) (key : JsString) : State :=
  let previous := s.tails.get? key
  let i := s.calls.length
  let tails := s.tails.set key i
  if isPending s.calls previous then
    { s with calls := s.calls ++ [⟨key, previous, .blocked, .blocked, none, none⟩], tails }
  else
    { s with
      calls := s.calls ++ [⟨key, previous, .catching, .catching, none, none⟩], tails,
      queue := s.queue ++ [.tail i, .body i] }

/-- The `finally` block: `release()`, and the entry goes if it is still the own one. -/
def finish (s : State) (i : Nat) (c : Call) : State :=
  let c := { c with phase := .finished, result := c.operation }
  let s := if c.tail = .adopted then s.put i { c with tail := .settling } [.tail i] else s.put i c []
  if s.tails.get? c.key = some i then { s with tails := s.tails.erase c.key } else s


/-- The handlers of call `j` on the tail of call `i` have not been queued yet. -/
def waitsFor (i : Nat) (d : Call) : Bool := d.previous = some i ∧ d.phase = .blocked

/-- The tail of call `i` resolves, and what is chained to it is queued in the order of registration. -/
def resolveTail (s : State) (i : Nat) (c : Call) : State :=
  let s := s.put i { c with tail := .resolved } []
  let followers := s.calls.zipIdx.filter fun e ↦ waitsFor i e.1
  { s with
    calls := s.calls.map fun d ↦ if waitsFor i d then { d with tail := .catching, phase := .catching } else d
    queue := s.queue ++ followers.flatMap fun e ↦ [.tail e.2, .body e.2] }

def tailJob (s : State) (i : Nat) (c : Call) : State :=
  match c.tail with
  | .catching => s.put i { c with tail := .returning } [.tail i]
  | .returning => s.put i { c with tail := .adopting } [.tail i]
  | .adopting =>
    if c.phase = .finished then s.put i { c with tail := .settling } [.tail i]
    else s.put i { c with tail := .adopted } []
  | .settling => s.resolveTail i c
  | .blocked | .adopted | .resolved => s

def bodyJob (s : State) (i : Nat) (c : Call) : State :=
  match c.phase with
  | .catching => s.put i { c with phase := .resuming } [.body i]
  | .resuming => s.put i { c with phase := .running } []
  | .settled => s.finish i c
  | .blocked | .running | .finished => s

def perform (s : State) : Job → State
  | .tail i => (s.calls[i]?).elim s (s.tailJob i)
  | .body i => (s.calls[i]?).elim s (s.bodyJob i)

/-- The first job of the queue runs. -/
def microtask (s : State) : Option State :=
  match s.queue with
  | [] => none
  | job :: rest => some (perform { s with queue := rest } job)

/-- The promise of `operation` settles. -/
def settle (s : State) (i : Nat) (o : Outcome) : Option State :=
  (s.calls[i]?).bind fun c ↦
    if c.phase = .running then some (s.put i { c with phase := .settled, operation := some o } [.body i])
    else none

/-- `operation` throws before it returns a promise. -/
def throws (s : State) (i : Nat) : Option State :=
  (s.calls[i]?).bind fun c ↦
    if c.phase = .running then some (s.finish i { c with operation := some .rejected }) else none

end State

/-! ## The system -/

inductive Event where
  | run (key : JsString)
  | settle (i : Nat) (o : Outcome)
  | throws (i : Nat)
  | microtask

def Event.next : Event → State → Option State
  | .run key, s => some (s.enter key)
  | .settle i o, s => s.settle i o
  | .throws i, s => s.throws i
  | .microtask, s => s.microtask

def keyedAsyncLock : System State Event Unit where
  step e s := (e.next s).map fun s' ↦ ((), s')

end RabiRoute.KeyedAsyncLock
