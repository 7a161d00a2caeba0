import RabiRoute.Collections.InsertionMap
import RabiRoute.JsonText.Data
import RabiRoute.Transitions.System

/-!
# The transport of the persistence worker

Two `AgentRequestPersistenceTransport` at the ends of a port.  A value is cut into frames, and the next frame waits for
the acknowledgement of the last; the receiver yields before it acknowledges a frame and hands a value on.
-/

namespace RabiRoute.PersistenceTransport

open Collections JsonText Transitions

abbrev Bytes := List UInt8

def chunkSize : Nat := 30720
def wireBound : Nat := 32768

structure Frame where
  id : JsString
  sequence : Nat
  bytes : Bytes
  last : Bool

inductive Message where
  | value (frame : Frame)
  | ack (id : JsString) (sequence : Nat)

/-- `node:v8` for the values of a type.  A serialized value starts with a header, and a buffer has a length that is a
safe integer. -/
structure V8 (V : Type) where
  serialize : V → Bytes
  deserialize : Bytes → V
  /-- `serialize(frame).byteLength` -/
  frameSize : Frame → Nat
  deserialize_serialize : ∀ v, deserialize (serialize v) = v
  nonempty : ∀ v, serialize v ≠ []
  bounded : ∀ v, (serialize v).length < 2 ^ 53

variable {V : Type}

/-! ## Sending -/

inductive Outcome where
  | resolved
  | rejected

/-- The `sendValue` that runs. -/
structure Flight where
  id : JsString
  bytes : Bytes
  offset : Nat
  sequence : Nat
  /-- The promise that it awaits, and whether that has resolved. -/
  waiter : Nat := 0
  acknowledged : Bool := false

/-- The calls of `send` are chained to one another by `sending`: they settle in their order, and the call after those
that have settled runs next. -/
structure Outgoing (V : Type) where
  sends : List (JsString × V) := []
  outcomes : List Outcome := []
  current : Option Flight := none
  acknowledgements : InsertionMap JsString Nat := InsertionMap.empty
  /-- The promises that `sendValue` has made. -/
  waiters : Nat := 0

def ackKey (id : JsString) (sequence : Nat) : JsString := id ++ js ":" ++ decimal sequence

def Flight.frame (f : Flight) : Frame :=
  ⟨f.id, f.sequence, (f.bytes.drop f.offset).take chunkSize, decide (f.bytes.length ≤ f.offset + chunkSize)⟩

namespace Outgoing

def settle (o : Outgoing V) (outcome : Outcome) : Outgoing V :=
  { o with current := none, outcomes := o.outcomes ++ [outcome] }

/-- The head of the loop of `sendValue`, up to the next `await`. -/
def loop (v8 : V8 V) (o : Outgoing V) (f : Flight) : List Message × Outgoing V :=
  if f.offset < f.bytes.length then
    if wireBound < v8.frameSize f.frame + 4 then ([], o.settle .rejected)
    else
      ([.value f.frame], { o with
        current := some { f with waiter := o.waiters, acknowledged := false }
        acknowledgements := o.acknowledgements.set (ackKey f.id f.sequence) o.waiters
        waiters := o.waiters + 1 })
  else ([], o.settle .resolved)

/-- The call before has settled, and `sendValue` starts. -/
def begin (v8 : V8 V) (o : Outgoing V) : Option (List Message × Outgoing V) :=
  if o.current.isSome then none
  else (o.sends[o.outcomes.length]?).map fun call ↦
    o.loop v8 { id := call.1, bytes := v8.serialize call.2, offset := 0, sequence := 0 }

/-- `sendValue` goes on after `await acknowledged`. -/
def resume (v8 : V8 V) (o : Outgoing V) : Option (List Message × Outgoing V) :=
  o.current.bind fun f ↦
    if f.acknowledged then
      some (o.loop v8 { f with offset := f.offset + chunkSize, sequence := f.sequence + 1 })
    else none

/-- The listener on an acknowledgement. -/
def receiveAck (o : Outgoing V) (id : JsString) (sequence : Nat) : Outgoing V :=
  match o.acknowledgements.get? (ackKey id sequence) with
  | none => o
  | some waiter =>
    { o with
      acknowledgements := o.acknowledgements.erase (ackKey id sequence)
      current := o.current.map fun f ↦ if f.waiter = waiter then { f with acknowledged := true } else f }

end Outgoing

/-! ## Receiving -/

structure Receiver where
  sequence : Nat
  chunks : List Bytes

structure Incoming (V : Type) where
  incoming : InsertionMap JsString Receiver := InsertionMap.empty
  /-- The calls of `receive` that wait for `yieldImmediate`. -/
  yielding : List (Frame × Option V) := []
  /-- The calls of `onValue`. -/
  values : List (JsString × V) := []
  /-- The calls of `onError`. -/
  errors : Nat := 0

namespace Incoming

/-- `receive` up to its `await`. -/
def receive (v8 : V8 V) (i : Incoming V) (frame : Frame) : Incoming V :=
  if 2 ^ 53 ≤ frame.sequence then { i with errors := i.errors + 1 }
  else if wireBound < v8.frameSize frame + 4 then { i with errors := i.errors + 1 }
  else
    let receiver := (i.incoming.get? frame.id).getD ⟨0, []⟩
    if frame.sequence ≠ receiver.sequence then
      { i with
        incoming := i.incoming.set frame.id { receiver with sequence := receiver.sequence + 1 }
        errors := i.errors + 1 }
    else
      let chunks := receiver.chunks ++ [frame.bytes]
      if frame.last then
        { i with
          incoming := (i.incoming.set frame.id ⟨receiver.sequence + 1, chunks⟩).erase frame.id
          yielding := i.yielding ++ [(frame, some (v8.deserialize chunks.flatten))] }
      else
        { i with
          incoming := i.incoming.set frame.id ⟨receiver.sequence + 1, chunks⟩
          yielding := i.yielding ++ [(frame, none)] }

/-- `receive` after `yieldImmediate`. -/
def yielded (i : Incoming V) : Option (Message × Incoming V) :=
  match i.yielding with
  | [] => none
  | (frame, value) :: rest =>
    some (.ack frame.id frame.sequence, { i with
      yielding := rest
      values := i.values ++ value.toList.map fun v ↦ (frame.id, v) })

end Incoming

/-! ## The port -/

inductive Peer where
  | host
  | worker
deriving DecidableEq

def Peer.other : Peer → Peer
  | .host => .worker
  | .worker => .host

/-- `port p` are the messages on their way to `p`. -/
structure State (V : Type) where
  outgoing : Peer → Outgoing V
  incoming : Peer → Incoming V
  port : Peer → List Message

def State.initial : State V := ⟨fun _ ↦ {}, fun _ ↦ {}, fun _ ↦ []⟩

def State.post (s : State V) (p : Peer) (messages : List Message) : State V :=
  { s with port := Function.update s.port p.other (s.port p.other ++ messages) }

inductive Event (V : Type) where
  | send (p : Peer) (id : JsString) (value : V)
  | begin (p : Peer)
  | resume (p : Peer)
  | deliver (p : Peer)
  | yielded (p : Peer)

/-- All but the calls of `send`. -/
def Event.isInternal : Event V → Bool
  | .send _ _ _ => false
  | .begin _ | .resume _ | .deliver _ | .yielded _ => true

def State.deliver (v8 : V8 V) (s : State V) (p : Peer) : Option (State V) :=
  match s.port p with
  | [] => none
  | .ack id sequence :: rest =>
    some { s with
      outgoing := Function.update s.outgoing p ((s.outgoing p).receiveAck id sequence)
      port := Function.update s.port p rest }
  | .value frame :: rest =>
    some { s with
      incoming := Function.update s.incoming p ((s.incoming p).receive v8 frame)
      port := Function.update s.port p rest }

def State.setOutgoing (s : State V) (p : Peer) (o : Outgoing V) : State V :=
  { s with outgoing := Function.update s.outgoing p o }

def Event.next (v8 : V8 V) (s : State V) : Event V → Option (State V)
  | .send p id value =>
    some (s.setOutgoing p { s.outgoing p with sends := (s.outgoing p).sends ++ [(id, value)] })
  | .begin p => ((s.outgoing p).begin v8).map fun r ↦ (s.setOutgoing p r.2).post p r.1
  | .resume p => ((s.outgoing p).resume v8).map fun r ↦ (s.setOutgoing p r.2).post p r.1
  | .deliver p => s.deliver v8 p
  | .yielded p => (s.incoming p).yielded.map fun r ↦
    State.post { s with incoming := Function.update s.incoming p r.2 } p [r.1]

def transport (v8 : V8 V) : System (State V) (Event V) Unit where
  step e s := (e.next v8 s).map fun s' ↦ ((), s')

/-- All frames of a value with this id keep within the wire bound. -/
def Fits (v8 : V8 V) (id : JsString) : Prop :=
  ∀ sequence bytes last, sequence < 2 ^ 53 → bytes.length ≤ chunkSize →
    v8.frameSize ⟨id, sequence, bytes, last⟩ + 4 ≤ wireBound

/-- The ids of the calls are short enough. -/
def ShortIds (v8 : V8 V) (e : Event V) (_ : State V) : Prop :=
  match e with
  | .send _ id _ => Fits v8 id
  | .begin _ | .resume _ | .deliver _ | .yielded _ => True

end RabiRoute.PersistenceTransport
