import RabiRoute.Collections.InsertionMap
import RabiRoute.Shared.JsString

/-!
# Tunnel sessions and their streams

`TunnelSession` and `TunnelStream` of `session.ts`.  A session sends its frames one after the other
over one channel; each stream counts the bytes that it may still send and the bytes that it has
not yet credited to its peer.  Data are modelled by their number of bytes.
-/

open Collections

namespace RabiRoute.PeerTunnel

def dataFrameBytes : Nat := 12000
def streamWindowBytes : Nat := 65536
def maxConcurrentStreams : Nat := 16

inductive FrameType where
  | open_
  | head
  | data
  | end_
  | window
  | reset
  | ping
  | pong
  | other
deriving DecidableEq

/-- `data` is the number of bytes that the base64 text stands for, `bytes` an integral credit. -/
structure Frame where
  type : FrameType
  id : JsString
  request : Bool := false
  head : Bool := false
  data : Option Nat := none
  bytes : Option Int := none
deriving DecidableEq

def dataFrame (id : JsString) (length : Nat) : Frame := { type := .data, id, data := some length }

def windowFrame (id : JsString) (bytes : Nat) : Frame :=
  { type := .window, id, bytes := some (bytes : Int) }

/-- The length of the base64 text of `length` bytes. -/
def base64Length (length : Nat) : Nat := (length + 2) / 3 * 4

/-! ## Streams -/

/-- `writing` is what the running `_write` has not sent yet of its chunk, `awaiting` the length of
the frame whose `send` it awaits. -/
structure TunnelStream where
  credit : Nat := streamWindowBytes
  uncredited : Nat := 0
  responded : Bool := false
  readableLength : Nat := 0
  ended : Bool := false
  readableEnded : Bool := false
  writing : Option Nat := none
  awaiting : Nat := 0
  finalizing : Bool := false
  writableFinished : Bool := false

namespace TunnelStream

/-- `none` is the error "Tunnel receive window exceeded.". -/
def admits (stream : TunnelStream) (length : Nat) : Option Nat :=
  if length > dataFrameBytes ∨ stream.readableLength + length > streamWindowBytes + dataFrameBytes then
    none
  else some (stream.readableLength + length)

/-- `none` is the error "Invalid tunnel credit.". -/
def replenish (stream : TunnelStream) (bytes : Option Int) : Option TunnelStream :=
  match bytes with
  | none => none
  | some bytes =>
    if bytes < 1 ∨ stream.credit + bytes > streamWindowBytes then none
    else some { stream with credit := (stream.credit + bytes).toNat }

end TunnelStream

/-! ## Sessions -/

/-- The `authorize` callback of a `send`: one of the caller's own, that of `open`, or
`assertWriteCurrent` of the stream. -/
inductive Authorize where
  | none
  | callback
  | opening
  | writing
deriving DecidableEq

structure Job where
  frame : Frame
  authorize : Authorize

/-- `serial` are the sends that wait for their turn, `sending` is the one whose `channel.send` has
not settled.  A stream is destroyed when `streams` no longer has it. -/
structure TunnelSession where
  caller : Bool
  streams : InsertionMap JsString TunnelStream := .empty
  serial : List Job := []
  sending : Option Job := none
  pingWaiters : List JsString := []
  closed : Bool := false

namespace TunnelSession

def setStream (id : JsString) (stream : TunnelStream) (s : TunnelSession) : TunnelSession :=
  { s with streams := s.streams.set id stream }

def send (frame : Frame) (authorize : Authorize) (s : TunnelSession) : TunnelSession :=
  if s.closed then s else { s with serial := s.serial ++ [⟨frame, authorize⟩] }

def close (s : TunnelSession) : TunnelSession :=
  { s with closed := true, streams := .empty, pingWaiters := [] }

/-- `destroy` of a stream, with its `_destroy`. -/
def destroy (id : JsString) (s : TunnelSession) : TunnelSession :=
  match s.streams.get? id with
  | none => s
  | some stream =>
    let s := { s with streams := s.streams.erase id }
    if !stream.readableEnded || !stream.writableFinished then s.send { type := .reset, id } .none else s

def «open» (id : JsString) (s : TunnelSession) : Option TunnelSession :=
  if s.closed || !s.caller || maxConcurrentStreams ≤ s.streams.entries.length then none
  else some ((s.setStream id {}).send { type := .open_, id, request := true } .opening)

def ping (id : JsString) (s : TunnelSession) : Option TunnelSession :=
  if s.closed || 2 ≤ s.pingWaiters.length then none
  else some ({ s with pingWaiters := s.pingWaiters ++ [id] }.send { type := .ping, id } .none)

/-! ## What Node calls on a stream -/

/-- `_read`. -/
def read (id : JsString) (stream : TunnelStream) (s : TunnelSession) : TunnelSession :=
  if stream.uncredited = 0 then s.setStream id stream
  else (s.setStream id { stream with uncredited := 0 }).send (windowFrame id stream.uncredited) .none

/-- The consumer takes `length` bytes from the buffer, and Node calls `_read` if that leaves it
below the high-water mark. -/
def consume (id : JsString) (length : Nat) (stream : TunnelStream) (s : TunnelSession) : TunnelSession :=
  let stream := { stream with readableLength := stream.readableLength - length }
  if stream.readableLength < streamWindowBytes then s.read id stream else s.setStream id stream

/-- One turn of the loop of `_write`, which waits while it has no credit. -/
def writeTurn (id : JsString) (rest : Nat) (stream : TunnelStream) (s : TunnelSession) : TunnelSession :=
  if rest = 0 then s.setStream id { stream with writing := none }
  else
    let length := min dataFrameBytes (min stream.credit rest)
    (s.setStream id { stream with credit := stream.credit - length, awaiting := length }).send
      (dataFrame id length) .writing

/-! ## Receiving -/

/-- `TunnelStream.receive`.  `push` on a stream that has ended destroys it. -/
def receiveData (id : JsString) (stream : TunnelStream) (length : Nat) (s : TunnelSession) :
    Option TunnelSession :=
  (stream.admits length).map fun readableLength ↦
    if stream.ended then s.destroy id
    else if readableLength < streamWindowBytes then
      (s.setStream id { stream with readableLength }).send (windowFrame id length) .none
    else
      s.setStream id { stream with readableLength, uncredited := stream.uncredited + length }

def receiveOnStream (frame : Frame) (stream : TunnelStream) (s : TunnelSession) : Option TunnelSession :=
  match frame.type with
  | .head => if frame.head then some (s.setStream frame.id { stream with responded := true }) else none
  | .data =>
    match frame.data with
    | none => none
    | some length =>
      if base64Length length > base64Length dataFrameBytes then none
      else s.receiveData frame.id stream length
  | .end_ => some (s.setStream frame.id { stream with ended := true })
  | .window => (stream.replenish frame.bytes).map fun stream ↦ s.setStream frame.id stream
  | .reset => some { s with streams := s.streams.erase frame.id }
  | _ => none

/-- What `receive` does with a decoded frame; `none` is an error. -/
def accept (frame : Frame) (s : TunnelSession) : Option TunnelSession :=
  if frame.id.length > 80 then none
  else
    match frame.type with
    | .ping => some (s.send { type := .pong, id := frame.id } .none)
    | .pong => some { s with pingWaiters := s.pingWaiters.erase frame.id }
    | .open_ =>
      if s.caller || maxConcurrentStreams ≤ s.streams.entries.length ||
          (s.streams.get? frame.id).isSome || !frame.request then none
      else some (s.setStream frame.id {})
    | _ =>
      match s.streams.get? frame.id with
      | none => some s
      | some stream => s.receiveOnStream frame stream

/-- `receive`: an error closes the session, and a closed session does not listen. -/
def receive (frame : Frame) (s : TunnelSession) : TunnelSession :=
  if s.closed then s
  else
    match s.accept frame with
    | none => s.close
    | some s => s

/-! ## The turns of a session -/

inductive Event where
  | open_ (id : JsString)
  | reply (id : JsString)
  | write (id : JsString) (length : Nat)
  | writeTurn (id : JsString)
  | final (id : JsString)
  | consume (id : JsString) (length : Nat)
  | read (id : JsString)
  | endRead (id : JsString)
  | destroy (id : JsString)
  | ping (id : JsString)
  | dispatch (authorized encoded : Bool)
  | sent (ok : Bool)
  | close

/-- Whether `authorize` throws when the turn of the job comes. -/
def rejects (job : Job) (authorized : Bool) (s : TunnelSession) : Bool :=
  match job.authorize with
  | .none => false
  | .callback | .opening => !authorized
  | .writing => (s.streams.get? job.frame.id).isNone || !authorized

/-- What follows from a rejected send: `open` and the write of a stream destroy the stream. -/
def onRejected (job : Job) (s : TunnelSession) : TunnelSession :=
  match job.authorize with
  | .none | .callback => s
  | .opening | .writing => s.destroy job.frame.id

/-- The turn of the first send in `serial`, and the frame that it hands to the channel. -/
def dispatch (authorized encoded : Bool) (s : TunnelSession) : Option (Option Frame × TunnelSession) :=
  match s.sending, s.serial with
  | none, job :: serial =>
    let s := { s with serial }
    if s.closed then some (none, s)
    else if s.rejects job authorized then some (none, s.onRejected job)
    else if encoded then some (some job.frame, { s with sending := some job })
    else some (none, s.close)
  | _, _ => none

/-- What awaits a send goes on: `_write` has sent one more frame, `_final` is done. -/
def onSent (job : Job) (s : TunnelSession) : TunnelSession :=
  match s.streams.get? job.frame.id, job.authorize, job.frame.type with
  | some stream, .writing, .data =>
    s.setStream job.frame.id
      { stream with writing := stream.writing.map (· - stream.awaiting), awaiting := 0 }
  | some stream, .writing, .end_ => s.setStream job.frame.id { stream with writableFinished := true }
  | _, _, _ => s

def sent (ok : Bool) (s : TunnelSession) : Option TunnelSession :=
  s.sending.map fun job ↦
    let s := { s with sending := none }
    if ok then s.onSent job else s.close

/-- A turn of the session, with the frame that it hands to the channel. -/
def step (e : Event) (s : TunnelSession) : Option (Option Frame × TunnelSession) :=
  match e with
  | .open_ id => (s.open id).map (none, ·)
  | .reply id =>
    if (s.streams.get? id).isSome then some (none, s.send { type := .head, id, head := true } .none)
    else none
  | .write id length =>
    (s.streams.get? id).bind fun stream ↦
      if stream.writing = none ∧ !stream.finalizing then
        some (none, s.setStream id { stream with writing := some length })
      else none
  | .writeTurn id =>
    (s.streams.get? id).bind fun stream ↦
      match stream.writing with
      | some rest =>
        if stream.awaiting = 0 ∧ (rest = 0 ∨ stream.credit ≠ 0) then
          some (none, s.writeTurn id rest stream)
        else none
      | none => none
  | .final id =>
    (s.streams.get? id).bind fun stream ↦
      if stream.writing = none ∧ !stream.finalizing then
        some (none, (s.setStream id { stream with finalizing := true }).send { type := .end_, id } .writing)
      else none
  | .consume id length =>
    (s.streams.get? id).bind fun stream ↦
      if length ≤ stream.readableLength then some (none, s.consume id length stream) else none
  | .read id =>
    (s.streams.get? id).bind fun stream ↦
      if stream.readableLength < streamWindowBytes then some (none, s.read id stream) else none
  | .endRead id =>
    (s.streams.get? id).bind fun stream ↦
      if stream.ended ∧ stream.readableLength = 0 then
        some (none, s.setStream id { stream with readableEnded := true })
      else none
  | .destroy id => if (s.streams.get? id).isSome then some (none, s.destroy id) else none
  | .ping id => (s.ping id).map (none, ·)
  | .dispatch authorized encoded => s.dispatch authorized encoded
  | .sent ok => (s.sent ok).map (none, ·)
  | .close => some (none, s.close)

end TunnelSession

end RabiRoute.PeerTunnel
