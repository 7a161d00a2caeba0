import RabiRoute.Interleave.Machine
import RabiRoute.Shared.Host
import RabiRoute.Shared.JsString

/-!
# The instance lock of the Manager

`managerInstanceLock.ts` and `linuxProcessLease.ts`: any number of calls on one host contend for one
ownership namespace.  A call is a program of the single steps that `acquireManagerInstanceLock` and
`release` make, so other calls and the death of a process may come between any two of them.
-/

open Interleave Interleave.Program

namespace RabiRoute.InstanceLock

inductive Platform where
  | win32
  | linux
  /-- Any other system: Unix sockets, and no flock lease. -/
  | other
deriving DecidableEq

structure ManagerInstanceOwner where
  pid : Int
  ownerId : JsString
  startedAt : JsString
  projectRoot : JsString
deriving DecidableEq

/-- The file name of a socket, in the temporary directory of its process. -/
abbrev SocketPath := Nat
/-- `manager-instance.lock`, in the runtime directory of a project root. -/
abbrev ReceiptPath := Nat
abbrev Inode := Nat

/-- The text of a receipt: nothing readable, or the record of an owner. -/
inductive ReceiptText where
  | blank
  | owner (o : ManagerInstanceOwner)

/-- What only tells of an owner and never decides who it is. -/
structure Diagnostics where
  receipt : ReceiptPath → Option Inode
  /-- `${lockPath}.stale-${ownerId}`. -/
  renamed : ReceiptPath → JsString → Option Inode
  text : Inode → ReceiptText
  nextReceipt : Inode
  /-- The owner file beside the flock lease. -/
  leaseOwner : Option ManagerInstanceOwner

/-- One host, as far as one ownership namespace reaches. -/
structure LeaseState where
  dead : Pid → Bool
  /-- The call whose descriptor has the flock. -/
  flock : Option CallId
  /-- The call whose server has the named pipe. -/
  pipe : Option CallId
  socket : SocketPath → Option Inode
  /-- The file is a socket of the current user. -/
  ownSocket : Inode → Bool
  /-- The call whose server accepts the connections of a socket. -/
  listener : Inode → Option CallId
  nextInode : Inode
  /-- The socket that the server of a call has bound. -/
  bound : CallId → Option Inode
  /-- What the last probe of a call met (not on disk). -/
  seen : CallId → Option Inode
  /-- The calls between a successful acquire and the begin of their release (not on disk). -/
  holding : CallId → Bool
  files : Diagnostics

inductive LockError where
  | eaddrinuse
  | eperm
  | enoent
  | eexist
  /-- Any other failure of a system call. -/
  | eio
  | unconfirmedLease
  | legacyNotSocket
  | leaseAlreadyHeld (owner : Option ManagerInstanceOwner)
  | alreadyRunning (lockPath : ReceiptPath) (owner : ManagerInstanceOwner)
deriving DecidableEq

inductive FlockAnswer where
  | acquired
  /-- Exit code 17. -/
  | conflict

inductive Cmd where
  | mkdirRuntime
  /-- The directory of the leases is there and private; the lease file is open. -/
  | openLeaseFile
  | flock
  | readLeaseOwner
  | publishLeaseOwner
  | unlinkLeaseOwner
  | closeLeaseFile
  | lstatSocket
  | listen
  | probe
  /-- The unlink of a socket that the probe found stale. -/
  | unlinkStale
  /-- The unlink after the close, in `release`. -/
  | unlinkAgain
  | askOwner
  | isListening
  /-- The two halves of `server.close()`: the name goes first, then the listener. -/
  | closeUnlink
  | closeListener
  | renameReceipt
  | unlinkRenamed
  | openReceipt
  | writeReceipt (fd : Inode)
  | closeReceipt
  | readReceipt
  | unlinkReceipt
  | enter
  | leave

abbrev Cmd.Val : Cmd → Type
  | .flock => FlockAnswer
  | .readLeaseOwner => Option ManagerInstanceOwner
  | .lstatSocket => Bool
  | .probe => Bool
  | .askOwner => Option ManagerInstanceOwner
  | .isListening => Bool
  | .openReceipt => Inode
  | .readReceipt => ReceiptText
  | _ => Unit

abbrev Cmd.Response : Cmd → Type := Fallible LockError Cmd.Val

abbrev Prog := Program Cmd Cmd.Response LockError

def sys (c : Cmd) : Prog c.Val := performOrThrow c

/-- What the outside world decides at a step. -/
inductive Choice where
  | ok
  | fail
  /-- The step has its effect and fails after it. -/
  | lateFail
  /-- The sandbox prohibits Unix sockets. -/
  | eperm
  /-- No answer in time, or one that cannot be read; a close that leaves the name. -/
  | silent
deriving DecidableEq

inductive Event where
  | die (pid : Pid)

/-- The calls of a run: the platform of their host, the process of each one, the paths that it uses
and the owner that it records. -/
structure Calls where
  platform : Platform
  pid : CallId → Pid
  socketPath : CallId → SocketPath
  receiptPath : CallId → ReceiptPath
  owner : CallId → ManagerInstanceOwner

namespace Calls

variable (calls : Calls)

def alive (s : LeaseState) (t : CallId) : Bool := !s.dead (calls.pid t)

/-- The call whose server answers at the address of call `t`. -/
def answering (s : LeaseState) (t : CallId) : Option CallId :=
  if calls.platform = .win32 then s.pipe else (s.socket (calls.socketPath t)).bind s.listener

end Calls

namespace LeaseState

def setReceipt (s : LeaseState) (p : ReceiptPath) (i : Option Inode) : LeaseState :=
  { s with files := { s.files with receipt := fun q ↦ if q = p then i else s.files.receipt q } }

def setRenamed (s : LeaseState) (p : ReceiptPath) (ownerId : JsString) (i : Option Inode) : LeaseState :=
  { s with files := { s.files with
      renamed := fun q id ↦ if q = p ∧ id = ownerId then i else s.files.renamed q id } }

def setText (s : LeaseState) (i : Inode) (text : ReceiptText) : LeaseState :=
  { s with files := { s.files with text := fun j ↦ if j = i then text else s.files.text j } }

/-- `fs.openSync(lockPath, "wx")` when the path names nothing. -/
def createReceipt (s : LeaseState) (p : ReceiptPath) : LeaseState :=
  ({ s with files := { s.files with nextReceipt := s.files.nextReceipt + 1 } }.setReceipt p
    (some s.files.nextReceipt)).setText s.files.nextReceipt .blank

def setLeaseOwner (s : LeaseState) (owner : Option ManagerInstanceOwner) : LeaseState :=
  { s with files := { s.files with leaseOwner := owner } }

def setSeen (s : LeaseState) (t : CallId) (i : Option Inode) : LeaseState :=
  { s with seen := fun u ↦ if u = t then i else s.seen u }

def setHolding (s : LeaseState) (t : CallId) (b : Bool) : LeaseState :=
  { s with holding := fun u ↦ if u = t then b else s.holding u }

/-- The path has no socket: a server binds a new one and listens on it. -/
def bind (s : LeaseState) (t : CallId) (p : SocketPath) : LeaseState :=
  { s with
    socket := fun q ↦ if q = p then some s.nextInode else s.socket q
    ownSocket := fun i ↦ if i = s.nextInode then true else s.ownSocket i
    listener := fun i ↦ if i = s.nextInode then some t else s.listener i
    nextInode := s.nextInode + 1
    bound := fun u ↦ if u = t then some s.nextInode else s.bound u }

def unlink (s : LeaseState) (p : SocketPath) : LeaseState :=
  { s with socket := fun q ↦ if q = p then none else s.socket q }

/-- The server of a call no longer listens. -/
def stop (s : LeaseState) (t : CallId) : LeaseState :=
  { s with
    pipe := if s.pipe = some t then none else s.pipe
    listener := fun i ↦ if s.listener i = some t then none else s.listener i }

def unlock (s : LeaseState) (t : CallId) : LeaseState :=
  { s with flock := if s.flock = some t then none else s.flock }

end LeaseState

/-! ## Owners in JSON -/

namespace ManagerInstanceOwner

/-- `readManagerInstanceOwner` on the text of a receipt. -/
def ofReceipt : ReceiptText → Option ManagerInstanceOwner
  | .blank => none
  | .owner o => if o.pid ≤ 0 ∨ o.ownerId.trim = [] then none else some { o with ownerId := o.ownerId.trim }

/-- What `readOsLeaseOwner` accepts from a server. -/
def ofAnswer (o : ManagerInstanceOwner) : Option ManagerInstanceOwner :=
  if 0 < o.pid ∧ o.ownerId.trim ≠ [] then some o else none

/-- The owner that an error names when nothing better is known. -/
def unknown (projectRoot : JsString) : ManagerInstanceOwner := ⟨0, js "os-lease-owner", [], projectRoot⟩

/-- The owner that the metadata of the flock lease name. -/
def ofMetadata (projectRoot : JsString) (metadata : Option ManagerInstanceOwner) : ManagerInstanceOwner :=
  (metadata.filter fun o ↦ decide (0 < o.pid)).getD (unknown projectRoot)

end ManagerInstanceOwner

section Steps

variable (calls : Calls)

/-- `server.listen`: an existing pipe or socket path answers `EADDRINUSE`. -/
def listen (t : CallId) (s : LeaseState) : Except LockError Unit × LeaseState :=
  if calls.platform = .win32 then
    if s.pipe.isSome then (.error .eaddrinuse, s) else (.ok (), { s with pipe := some t })
  else if (s.socket (calls.socketPath t)).isSome then (.error .eaddrinuse, s)
  else (.ok (), s.bind t (calls.socketPath t))

def unlinkSocket (t : CallId) (s : LeaseState) : Except LockError Unit × LeaseState :=
  if (s.socket (calls.socketPath t)).isSome then (.ok (), s.unlink (calls.socketPath t)) else (.error .enoent, s)

/-- The effect of one step of call `t`. -/
def execLive (t : CallId) (s : LeaseState) : (c : Cmd) → Choice → Option (c.Response × LeaseState)
  | .mkdirRuntime, ch => some (if ch = .ok then .ok () else .error .eio, s)
  | .openLeaseFile, ch => some (if ch = .ok then .ok () else .error .eio, s)
  | .flock, ch =>
    if s.flock.isSome then some (if ch = .ok then .ok .conflict else .error .unconfirmedLease, s)
    else if ch = .ok then some (.ok .acquired, { s with flock := some t })
    -- `flock` may have taken the lock and its exit be lost
    else if ch = .lateFail then some (.error .unconfirmedLease, { s with flock := some t })
    else some (.error .unconfirmedLease, s)
  | .readLeaseOwner, ch => some (.ok (if ch = .ok then s.files.leaseOwner else none), s)
  | .publishLeaseOwner, ch =>
    if ch = .ok then some (.ok (), s.setLeaseOwner (some (calls.owner t)))
    else if ch = .lateFail then some (.error .eio, s.setLeaseOwner (some (calls.owner t)))
    else some (.error .eio, s)
  | .unlinkLeaseOwner, ch =>
    if ch ≠ .ok then some (.error .eio, s)
    else some (if s.files.leaseOwner.isSome then .ok () else .error .enoent, s.setLeaseOwner none)
  | .closeLeaseFile, _ => some (.ok (), s.unlock t)
  | .lstatSocket, ch =>
    if ch ≠ .ok then some (.error .eio, s)
    else some ((s.socket (calls.socketPath t)).elim (.error .enoent) fun i ↦ .ok (s.ownSocket i), s)
  | .listen, ch =>
    if ch = .ok then some (listen calls t s)
    else some (.error (if ch = .eperm then .eperm else .eio), s)
  | .probe, ch =>
    -- a connection, or any other error, says nothing against the server
    some (.ok (decide (ch = .ok) && (calls.answering s t).isNone), s.setSeen t (s.socket (calls.socketPath t)))
  | .unlinkStale, ch => some (if ch = .ok then unlinkSocket calls t s else (.error .eio, s))
  | .unlinkAgain, ch => some (if ch = .ok then unlinkSocket calls t s else (.error .eio, s))
  | .askOwner, ch =>
    some (.ok (if ch = .ok then (calls.answering s t).bind fun u ↦ (calls.owner u).ofAnswer else none), s)
  | .isListening, _ => some (.ok (decide (s.pipe = some t) || decide ((s.bound t).bind s.listener = some t)), s)
  | .closeUnlink, ch =>
    some (.ok (), if calls.platform = .win32 ∨ ch = .silent then s else s.unlink (calls.socketPath t))
  | .closeListener, _ => some (.ok (), s.stop t)
  | .renameReceipt, ch =>
    if ch ≠ .ok then some (.error .eio, s)
    else some ((s.files.receipt (calls.receiptPath t)).elim (.error .enoent, s) fun i ↦
      (.ok (), (s.setReceipt (calls.receiptPath t) none).setRenamed (calls.receiptPath t)
        (calls.owner t).ownerId (some i)))
  | .unlinkRenamed, ch =>
    if ch ≠ .ok then some (.error .eio, s)
    else some (if (s.files.renamed (calls.receiptPath t) (calls.owner t).ownerId).isSome then .ok ()
      else .error .enoent, s.setRenamed (calls.receiptPath t) (calls.owner t).ownerId none)
  | .openReceipt, ch =>
    if ch ≠ .ok then some (.error .eio, s)
    else if (s.files.receipt (calls.receiptPath t)).isSome then some (.error .eexist, s)
    else some (.ok s.files.nextReceipt, s.createReceipt (calls.receiptPath t))
  | .writeReceipt fd, ch =>
    if ch = .ok then some (.ok (), s.setText fd (.owner (calls.owner t)))
    else if ch = .lateFail then some (.error .eio, s.setText fd (.owner (calls.owner t)))
    else some (.error .eio, s)
  | .closeReceipt, ch => some (if ch = .ok then .ok () else .error .eio, s)
  | .readReceipt, ch =>
    if ch ≠ .ok then some (.error .eio, s)
    else some ((s.files.receipt (calls.receiptPath t)).elim (.error .enoent) fun i ↦ .ok (s.files.text i), s)
  | .unlinkReceipt, ch =>
    if ch ≠ .ok then some (.error .eio, s)
    else some (if (s.files.receipt (calls.receiptPath t)).isSome then .ok () else .error .enoent,
      s.setReceipt (calls.receiptPath t) none)
  | .enter, _ => some (.ok (), s.setHolding t true)
  | .leave, _ => some (.ok (), s.setHolding t false)

/-- Only the calls of live processes run. -/
def exec (t : CallId) (c : Cmd) (ch : Choice) (s : LeaseState) : Option (c.Response × LeaseState) :=
  if calls.alive s t then execLive calls t s c ch else none

/-- The death of a process ends its leases and its listeners; the files of its sockets stay. -/
def bury (pid : Pid) (s : LeaseState) : LeaseState :=
  { s with
    dead := fun p ↦ if p = pid then true else s.dead p
    flock := s.flock.filter fun t ↦ decide (calls.pid t ≠ pid)
    pipe := s.pipe.filter fun t ↦ decide (calls.pid t ≠ pid)
    listener := fun i ↦ (s.listener i).filter fun t ↦ decide (calls.pid t ≠ pid) }

def event : Event → LeaseState → Option LeaseState
  | .die pid, s => some (bury calls pid s)

def machine : Machine LeaseState Cmd Cmd.Response CallId Choice Event := ⟨exec calls, event calls⟩

end Steps

/-! ## The source functions -/

def ignoreMissing (p : Prog Unit) : Prog Unit :=
  p.attempt fun error ↦ if error = .enoent then pure () else raise error

variable (calls : Calls) (t : CallId)

def readManagerInstanceOwner : Prog (Option ManagerInstanceOwner) :=
  (do
    let text ← sys .readReceipt
    pure (ManagerInstanceOwner.ofReceipt text)).attempt fun _ ↦ pure none

def writeExclusive : Prog Unit := do
  let handle ← sys .openReceipt
  (sys (.writeReceipt handle)).ensure (sys .closeReceipt)

def removeDiagnosticLock : Prog Unit := do
  let renamed ← (do
    sys .renameReceipt
    pure true).attempt fun error ↦ if error = LockError.enoent then pure false else raise error
  if renamed then ignoreMissing (sys .unlinkRenamed) else pure ()

def acquireOsLease : Prog Unit :=
  (sys .listen).attempt fun error ↦
    if calls.platform = Platform.win32 ∨ error ≠ LockError.eaddrinuse then raise error
    else do
      let stale ← sys .probe
      if !stale then raise error
      else
        ignoreMissing (sys .unlinkStale)
        sys .listen

def closeLease : Prog Unit := do
  if ← sys .isListening then
    sys .closeUnlink
    sys .closeListener
  else pure ()

/-- `if (lease) await closeLease(lease)`. -/
def closeAcquired (lease : Bool) : Prog Unit := if lease then closeLease else pure ()

/-- The `release` of a flock lease. -/
def releaseLinuxLease : Prog Unit := (ignoreMissing (sys .unlinkLeaseOwner)).ensure (sys .closeLeaseFile)

/-- `linuxLease?.release()`. -/
def releaseAcquired (linuxLease : Bool) : Prog Unit := if linuxLease then releaseLinuxLease else pure ()

def acquireLinuxProcessLease : Prog Unit := do
  sys .openLeaseFile
  (do
    match ← sys .flock with
    | .conflict =>
      let metadata ← sys .readLeaseOwner
      raise (.leaseAlreadyHeld metadata)
    | .acquired => sys .publishLeaseOwner).attempt fun error ↦ do
      sys .closeLeaseFile
      raise error

/-- What a successful acquire hands to `release`. -/
structure Acquired where
  lease : Bool
  linuxLease : Bool

/-- The legacy Linux socket path is free or a socket of the current user. -/
def checkLegacySocket : Prog Unit :=
  if calls.platform = .linux then
    (do
      let own ← sys .lstatSocket
      if own then pure () else raise .legacyNotSocket).attempt fun error ↦
        if error = LockError.enoent then pure () else raise error
  else pure ()

def legacyAbsent : Prog Bool :=
  (do
    let _ ← sys .lstatSocket
    pure false).attempt fun error ↦ if error = LockError.enoent then pure true else raise error

/-- The socket or pipe, where the system allows one. -/
def acquireSocketLease : Prog Bool := do
  checkLegacySocket calls
  (do
    acquireOsLease calls
    pure true).attempt fun error ↦
      if calls.platform ≠ Platform.linux ∨ error ≠ LockError.eperm then raise error
      else do
        if ← legacyAbsent then pure false else raise error

def existingOwner : Prog ManagerInstanceOwner := do
  match ← sys .askOwner with
  | some owner => pure owner
  | none =>
    let receipt ← readManagerInstanceOwner
    pure (receipt.getD (.unknown (calls.owner t).projectRoot))

/-- The flock lease, on Linux. -/
def acquireFlock (linuxLease : Bool) : Prog Unit :=
  if linuxLease then
    acquireLinuxProcessLease.attempt fun error ↦
      match error with
      | .leaseAlreadyHeld metadata =>
        raise (.alreadyRunning (calls.receiptPath t) (.ofMetadata (calls.owner t).projectRoot metadata))
      | _ => raise error
  else pure ()

def acquireManagerInstanceLock : Prog Acquired := do
  sys .mkdirRuntime
  let linuxLease := decide (calls.platform = Platform.linux)
  acquireFlock calls t linuxLease
  let lease ← (acquireSocketLease calls).attempt fun error ↦ do
    releaseAcquired linuxLease
    if error ≠ LockError.eaddrinuse then raise error
    else
      let existing ← existingOwner calls t
      raise (.alreadyRunning (calls.receiptPath t) existing)
  (do
    removeDiagnosticLock
    writeExclusive).attempt fun error ↦ do
      closeAcquired lease
      releaseAcquired linuxLease
      raise error
  pure ⟨lease, linuxLease⟩

/-- The receipt is removed while it still names its own owner. -/
def removeOwnReceipt : Prog Unit := do
  let current ← readManagerInstanceOwner
  if current.map (·.ownerId) = some (calls.owner t).ownerId then
    (sys .unlinkReceipt).attempt fun _ ↦ pure ()
  else pure ()

def unlinkLeaseAddress : Prog Unit :=
  if calls.platform = .other then (sys .unlinkAgain).attempt fun _ ↦ pure () else pure ()

def release (acquired : Acquired) : Prog Unit := do
  closeAcquired acquired.lease
  removeOwnReceipt calls t
  unlinkLeaseAddress calls
  releaseAcquired acquired.linuxLease

/-- One Manager: it owns the lock from `enter` until it begins its release. -/
def ownInstanceLock : Prog Unit := do
  let acquired ← acquireManagerInstanceLock calls t
  sys .enter
  sys .leave
  release calls t acquired

/-- No call has started; what earlier Managers left at the paths is there. -/
def initial (files : Diagnostics) (socket : SocketPath → Option Inode) (ownSocket : Inode → Bool) (nextInode : Inode) :
    Config LeaseState Cmd Cmd.Response CallId LockError Unit where
  shared :=
    { dead := fun _ ↦ false
      flock := none
      pipe := none
      socket
      ownSocket
      listener := fun _ ↦ none
      nextInode
      bound := fun _ ↦ none
      seen := fun _ ↦ none
      holding := fun _ ↦ false
      files }
  prog := fun t ↦ ownInstanceLock calls t

end RabiRoute.InstanceLock
