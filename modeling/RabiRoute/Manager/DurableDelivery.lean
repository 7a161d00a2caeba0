import RabiRoute.Interleave.Machine
import RabiRoute.Shared.Host

/-!
# The receipt of a durable delivery

Any number of calls of `executeDurableDelivery` and `reconcileDurableDelivery`, in processes of any
hosts, act on the receipt file of one delivery.  A receipt is reserved by an exclusive create and
replaced by an atomic rename; everything but the create happens under the mutation lock of the
receipt, which is taken here as a lock that excludes.
-/

open Interleave Interleave.Program

namespace RabiRoute.DurableDelivery

abbrev Digest := Nat

abbrev DeliveryId := Nat

def receiptVersion : Nat := 1
def defaultExecutionLeaseMs : Nat := 15 * 60000

inductive ReceiptState where
  | reserved
  | sending
  | completed
  | uncertain
deriving DecidableEq

structure Receipt (R : Type) where
  version : Nat
  deliveryId : DeliveryId
  requestDigest : Digest
  state : ReceiptState
  createdAt : Nat
  updatedAt : Nat
  result : Option R
  error : Option String
  /-- The `randomUUID()` of the call that executes the delivery. -/
  executionId : Option CallId
  ownerHost : Option HostName
  ownerPid : Option Pid
  leaseExpiresAt : Option Nat
  leaseDurationMs : Option Nat
  /-- `renewal === "mtime"` -/
  renewsByMtime : Bool
deriving DecidableEq

/-- The bytes of a receipt file: none yet, a write cut short, or a whole receipt. -/
inductive Content (R : Type) where
  | unwritten
  | torn (bytes : Nat)
  | record (r : Receipt R)
deriving DecidableEq

structure ReceiptFile (R : Type) where
  content : Content R
  mtimeMs : Nat
  ctimeMs : Nat

structure Stat where
  mtimeMs : Nat
  ctimeMs : Nat
  size : Nat
  ino : Nat
deriving DecidableEq

/-- The `revision` of a receipt snapshot; the digest of the raw bytes is taken as these bytes. -/
structure Snapshot (R : Type) where
  receipt : Receipt R
  raw : Content R
  stat : Stat

inductive HeartbeatStatus where
  | starting
  | active
  | failed
  | stopped
deriving DecidableEq

inductive HeartbeatFailure where
  | missing
  | invalid
  | ownerChanged
  | fenced
  | expired
  | io
deriving DecidableEq

def HeartbeatFailure.detail : Option HeartbeatFailure → String
  | some .missing => "receipt disappeared"
  | some .invalid => "receipt became invalid or unstable"
  | some .ownerChanged => "receipt inode changed"
  | some .fenced => "receipt ownership or fencing token changed"
  | some .expired => "receipt lease expired before renewal"
  | some .io => "heartbeat I/O failed"
  | none => "heartbeat worker did not confirm receipt ownership"

/-- The words a call shares with its heartbeat worker, and whether it has ended the worker. -/
structure HeartbeatControl where
  started : Bool
  terminated : Bool
  stop : Bool
  status : HeartbeatStatus
  failure : Option HeartbeatFailure
  count : Nat

inductive Thread where
  | call (t : CallId)
  | heartbeat (t : CallId)
deriving DecidableEq

def Thread.id : Thread → CallId
  | .call t => t
  | .heartbeat t => t

/-- What the `recover` callback answers. -/
inductive Recovery (R : Type) where
  | completed (result : R)
  | retry
  | inProgress (reason : String)
  | uncertain (reason : String)

/-- What the `verify` callback answers; `none` stands for an answer of no known form. -/
inductive Verification (R : Type) where
  | completed (result : Option R)
  | uncertain (reason : Option String)

/-- The receipt file, the processes, and what the calls have done so far. -/
structure DeliveryState (R : Type) where
  now : Nat
  dead : HostName → Pid → Bool
  /-- The file that the receipt path names. -/
  path : Option Nat
  file : Nat → ReceiptFile R
  nextInode : Nat
  /-- The thread that has the mutation lock. -/
  lock : Option Thread
  control : CallId → HeartbeatControl
  -- from here on: what the calls have done, which no call reads
  initialising : CallId → Option Nat
  /-- The calls that have reserved or claimed the receipt. -/
  executing : CallId → Bool
  /-- The calls that have read a receipt of their own payload. -/
  observed : CallId → Bool
  /-- The last result of a call that its `retryableRejection` accepted. -/
  rejection : CallId → Option R
  creates : CallId → Nat
  delivers : CallId → Nat
  retries : CallId → Nat
  rejections : CallId → Nat
  removals : CallId → Nat
  /-- A call has acted on a receipt that was not its to act on. -/
  trespass : Bool

inductive HeartbeatPhase where
  | startup
  | initialRenewal
deriving DecidableEq

inductive DeliveryError where
  | eexist
  | enoent
  /-- Any other failure of a file operation. -/
  | eio
  | lockTimeout
  /-- An error of `requestAuthority` or of a callback. -/
  | thrown (message : String)
  | noExecutionOwner
  | leaseLost (failure : Option HeartbeatFailure) (phase : HeartbeatPhase)
  /-- The `heartbeatFailure(code)` of a worker. -/
  | heartbeat (failure : HeartbeatFailure)
  /-- The caller has used the turns of its loop that this run looks at. -/
  | stillWaiting
deriving DecidableEq

def HeartbeatPhase.text : HeartbeatPhase → String
  | .startup => "heartbeat startup"
  | .initialRenewal => "initial renewal"

def DeliveryError.message : DeliveryError → String
  | .eexist => "EEXIST"
  | .enoent => "ENOENT"
  | .eio => "EIO"
  | .lockTimeout => "Timed out waiting for file lock"
  | .thrown message => message
  | .noExecutionOwner => "Durable delivery receipt has no valid execution owner."
  | .leaseLost failure phase =>
    "Durable delivery lease lost during " ++ phase.text ++ ": " ++ HeartbeatFailure.detail failure ++
      "."
  | .heartbeat _ => "durable delivery heartbeat failed"
  | .stillWaiting => ""

inductive Cmd (R : Type) where
  | requestAuthority
  | dateNow
  | openExclusive
  | writeNew (fd : Nat) (r : Receipt R)
  | close (fd : Nat)
  | stat
  | readFile
  /-- `atomicWriteFileSync`: a new file with this receipt is renamed to the receipt path. -/
  | replace (r : Receipt R)
  | unlink
  | lock
  | unlock
  | kill (pid : Pid)
  | wait
  -- the callbacks: a call of one, and what it settles with
  | deliver
  | awaitDelivery
  | recover (error : String)
  | awaitRecovery
  | retryableRejection (result : R)
  | verify (receipt : Receipt R)
  | awaitVerification
  -- a call and its heartbeat worker
  | startWorker
  | awaitStatus (expected : HeartbeatStatus)
  | loadFailure
  | requestStop
  | terminate
  | releaseWorkerLock
  -- the worker
  | awaitStart
  | tryLock
  | openReceipt
  | fstat (fd : Nat)
  | readDescriptor (fd : Nat)
  | futimes (fd : Nat) (mtimeMs : Nat)
  | loadStop
  | loadStatus
  | publish (status : HeartbeatStatus)
  | storeFailure (failure : HeartbeatFailure)
  | addCount

abbrev Cmd.Val {R : Type} : Cmd R → Type
  | .dateNow => Nat
  | .openExclusive => Nat
  | .stat => Stat
  | .readFile => Content R
  | .kill _ => Bool
  | .awaitDelivery => R
  | .awaitRecovery => Recovery R
  | .retryableRejection _ => Bool
  | .awaitVerification => Verification R
  | .awaitStatus _ => HeartbeatStatus
  | .loadFailure => Option HeartbeatFailure
  | .tryLock => Bool
  | .openReceipt => Nat
  | .fstat _ => Stat
  | .readDescriptor _ => Content R
  | .loadStop => Bool
  | .loadStatus => HeartbeatStatus
  | _ => Unit

abbrev Cmd.Response {R : Type} : Cmd R → Type := Fallible DeliveryError Cmd.Val

abbrev Prog (R : Type) := Program (Cmd R) Cmd.Response DeliveryError

def sys {R : Type} (c : Cmd R) : Prog R c.Val := performOrThrow c

/-- What the outside world decides at a step. -/
inductive Choice (R : Type) where
  | ok
  | fail
  | throws (message : String)
  /-- The write stops after some bytes. -/
  | tornWrite (bytes : Nat)
  /-- The step has its effect and then fails. -/
  | lateFail
  /-- The pid of a dead process names a process again (or `kill` answers `EPERM`). -/
  | pidReused
  /-- `kill` fails with a code that says nothing. -/
  | killUnknown
  /-- Windows answers `EPERM` for a lock that is being deleted. -/
  | contention
  | timeout
  | delivered (result : R)
  | recovered (recovery : Recovery R)
  | verified (verification : Verification R)
  | rejects (b : Bool)

inductive Event where
  | tick (ms : Nat)
  | die (host : HostName) (pid : Pid)

inductive CallKind where
  | execute
  | reconcile

/-- The calls of a run and their options. -/
structure Calls (R : Type) where
  count : Nat
  deliveryId : DeliveryId
  kind : CallId → CallKind
  /-- `requestDigest(options.payload)` -/
  digest : CallId → Digest
  host : CallId → HostName
  pid : CallId → Pid
  executionLeaseMs : CallId → Option Nat
  hasRecover : CallId → Bool
  recoverExistingUncertain : CallId → Bool
  hasRetryableRejection : CallId → Bool
  waitForCompletionMs : CallId → Nat
  /-- How far the loops of a call and of its worker are followed. -/
  turns : CallId → Nat
  renewals : CallId → Nat
  /-- The length of `JSON.stringify(receipt, null, 2)` and its newline. -/
  textLength : Receipt R → Nat

variable {R : Type}

namespace Calls

variable (calls : Calls R)

def alive (s : DeliveryState R) (t : CallId) : Bool := !s.dead (calls.host t) (calls.pid t)

def leaseMs (t : CallId) : Nat := max 100 ((calls.executionLeaseMs t).getD defaultExecutionLeaseMs)

def size : Content R → Nat
  | .unwritten => 0
  | .torn bytes => bytes
  | .record r => calls.textLength r

def stat (s : DeliveryState R) (i : Nat) : Stat :=
  ⟨(s.file i).mtimeMs, (s.file i).ctimeMs, calls.size (s.file i).content, i⟩

/-- The checks of `parseReceiptRaw` and the comparison with the call's `deliveryId`. -/
def parse : Content R → Option (Receipt R)
  | .record r => if r.version = receiptVersion ∧ r.deliveryId = calls.deliveryId then some r else none
  | _ => none

end Calls

namespace DeliveryState

variable (calls : Calls R) (s : DeliveryState R)

/-- The receipt that the receipt path holds. -/
def stored : Option (Receipt R) :=
  s.path.bind fun i ↦ match (s.file i).content with | .record r => some r | _ => none

def setFile (i : Nat) (f : ReceiptFile R) : DeliveryState R :=
  { s with file := fun j ↦ if j = i then f else s.file j }

def setControl (t : CallId) (control : HeartbeatControl) : DeliveryState R :=
  { s with control := fun u ↦ if u = t then control else s.control u }

def setInitialising (t : CallId) (i : Option Nat) : DeliveryState R :=
  { s with initialising := fun u ↦ if u = t then i else s.initialising u }

def setExecuting (t : CallId) (b : Bool) : DeliveryState R :=
  { s with executing := fun u ↦ if u = t then b else s.executing u }

def setObserved (t : CallId) (b : Bool) : DeliveryState R :=
  { s with observed := fun u ↦ if u = t then b else s.observed u }

def setRejection (t : CallId) (result : Option R) : DeliveryState R :=
  { s with rejection := fun u ↦ if u = t then result else s.rejection u }

/-- A step that `licence` does not cover is a trespass. -/
def note (licence : Bool) : DeliveryState R := { s with trespass := s.trespass || !licence }

def countCreate (t : CallId) : DeliveryState R :=
  { s with creates := fun u ↦ if u = t then s.creates u + 1 else s.creates u }

def countDeliver (t : CallId) : DeliveryState R :=
  { s with delivers := fun u ↦ if u = t then s.delivers u + 1 else s.delivers u }

def countRetry (t : CallId) : DeliveryState R :=
  { s with retries := fun u ↦ if u = t then s.retries u + 1 else s.retries u }

def countRejection (t : CallId) : DeliveryState R :=
  { s with rejections := fun u ↦ if u = t then s.rejections u + 1 else s.rejections u }

def countRemoval (t : CallId) : DeliveryState R :=
  { s with removals := fun u ↦ if u = t then s.removals u + 1 else s.removals u }

/-- The receipt is of the call's payload and not completed, and if the call has executed the
delivery, it still does. -/
def mayReplace (t : CallId) : Bool :=
  s.stored.any fun r ↦ decide (r.requestDigest = calls.digest t ∧ r.state ≠ .completed ∧
    (s.executing t = true → r.executionId = some t))

/-- The receipt path names `fd`, a receipt that call `t` executes. -/
def mayRenew (t : CallId) (fd : Nat) : Bool :=
  decide (s.path = some fd) && s.stored.any fun r ↦
    decide (r.requestDigest = calls.digest t ∧ r.state = .sending ∧ r.executionId = some t)

/-- `fs.openSync(filePath, "wx")` when there is no receipt; only a call that has not executed the
delivery yet may make one. -/
def create (t : CallId) : DeliveryState R :=
  ((({ s with path := some s.nextInode, nextInode := s.nextInode + 1 }.setFile s.nextInode
    ⟨.unwritten, s.now, s.now⟩).setInitialising t (some s.nextInode)).countCreate t).note
      (!s.executing t) |>.setExecuting t true

def write (t : CallId) (fd : Nat) (content : Content R) : DeliveryState R :=
  ((s.setFile fd ⟨content, s.now, s.now⟩).setInitialising t none).note
    (decide (s.initialising t = some fd))

def replace (t : CallId) (r : Receipt R) : DeliveryState R :=
  (({ s with path := some s.nextInode, nextInode := s.nextInode + 1 }.setFile s.nextInode
    ⟨.record r, s.now, s.now⟩).note (s.mayReplace calls t)).setExecuting t
      (s.executing t || decide (r.executionId = some t))

def remove (t : CallId) : DeliveryState R :=
  ({ s with path := none }.countRemoval t).note (s.mayReplace calls t)

def touch (t : CallId) (fd mtimeMs : Nat) : DeliveryState R :=
  (s.setFile fd { s.file fd with mtimeMs, ctimeMs := s.now }).note (s.mayRenew calls t fd)

/-- A reader has met this content. -/
def observe (t : CallId) (content : Content R) : DeliveryState R :=
  s.setObserved t (s.observed t || (calls.parse content).any fun r ↦
    decide (r.requestDigest = calls.digest t))

end DeliveryState

section Steps

variable (calls : Calls R)

/-- The lock is free, or the process of its holder is dead. -/
def lockFree (s : DeliveryState R) : Bool :=
  s.lock.all fun holder ↦ !calls.alive s holder.id

/-- The effect of one step of a call or of its heartbeat worker. -/
def execLive (thread : Thread) (s : DeliveryState R) :
    (c : Cmd R) → Choice R → Option (c.Response × DeliveryState R)
  | .requestAuthority, .throws message => some (.error (.thrown message), s)
  | .requestAuthority, _ => some (.ok (), s)
  | .dateNow, _ => some (.ok s.now, s)
  | .openExclusive, .fail => some (.error .eio, s)
  | .openExclusive, _ =>
    match s.path with
    | some _ => some (.error .eexist, s)
    | none => some (.ok s.nextInode, s.create thread.id)
  | .writeNew _ _, .fail => some (.error .eio, s.setInitialising thread.id none)
  | .writeNew fd _, .tornWrite bytes => some (.error .eio, s.write thread.id fd (.torn bytes))
  | .writeNew fd r, .lateFail => some (.error .eio, s.write thread.id fd (.record r))
  | .writeNew fd r, _ => some (.ok (), s.write thread.id fd (.record r))
  | .close _, .fail => some (.error .eio, s)
  | .close _, _ => some (.ok (), s)
  | .stat, .fail => some (.error .eio, s)
  | .stat, _ =>
    match s.path with
    | none => some (.error .enoent, s)
    | some i => some (.ok (calls.stat s i), s)
  | .readFile, .fail => some (.error .eio, s)
  | .readFile, _ =>
    match s.path with
    | none => some (.error .enoent, s)
    | some i => some (.ok (s.file i).content, s.observe calls thread.id (s.file i).content)
  | .replace _, .fail => some (.error .eio, s)
  | .replace r, .lateFail => some (.error .eio, s.replace calls thread.id r)
  | .replace r, _ => some (.ok (), s.replace calls thread.id r)
  | .unlink, .fail => some (.error .eio, s)
  | .unlink, ch =>
    match s.path with
    | none => some (.error .enoent, s)
    | some _ =>
      match ch with
      | .lateFail => some (.error .eio, s.remove calls thread.id)
      | _ => some (.ok (), s.remove calls thread.id)
  | .lock, .fail => some (.error .eio, s)
  | .lock, .timeout => some (.error .lockTimeout, s)
  | .lock, _ => if lockFree calls s then some (.ok (), { s with lock := some thread }) else none
  | .unlock, .fail => some (.error .eio, s)
  | .unlock, _ => some (.ok (), if s.lock = some thread then { s with lock := none } else s)
  | .kill _, .pidReused => some (.ok true, s)
  | .kill _, .killUnknown => some (.ok false, s)
  | .kill pid, _ => some (.ok (!s.dead (calls.host thread.id) pid), s)
  | .wait, _ => some (.ok (), s)
  | .deliver, _ => some (.ok (), (s.countDeliver thread.id).note (s.executing thread.id))
  | .awaitDelivery, .delivered result => some (.ok result, s)
  | .awaitDelivery, .throws message => some (.error (.thrown message), s)
  | .awaitDelivery, _ => none
  | .recover _, _ => some (.ok (), s.note (s.executing thread.id))
  | .awaitRecovery, .recovered .retry => some (.ok .retry, s.countRetry thread.id)
  | .awaitRecovery, .recovered recovery => some (.ok recovery, s)
  | .awaitRecovery, .throws message => some (.error (.thrown message), s)
  | .awaitRecovery, _ => none
  | .retryableRejection result, .rejects true =>
    some (.ok true, (s.countRejection thread.id).setRejection thread.id (some result))
  | .retryableRejection _, .rejects false => some (.ok false, s)
  | .retryableRejection _, .throws message => some (.error (.thrown message), s)
  | .retryableRejection _, _ => none
  | .verify _, _ => some (.ok (), s.note (s.observed thread.id))
  | .awaitVerification, .verified verification => some (.ok verification, s)
  | .awaitVerification, .throws message => some (.error (.thrown message), s)
  | .awaitVerification, _ => none
  | .startWorker, .fail => some (.error .eio, s)
  | .startWorker, _ =>
    some (.ok (), s.setControl thread.id
      ⟨true, (s.control thread.id).terminated, false, .starting, none, 0⟩)
  | .awaitStatus _, .timeout => some (.ok .failed, s)
  | .awaitStatus expected, _ =>
    let status := (s.control thread.id).status
    if status = expected then none else some (.ok status, s)
  | .loadFailure, _ => some (.ok (s.control thread.id).failure, s)
  | .requestStop, _ => some (.ok (), s.setControl thread.id { s.control thread.id with stop := true })
  | .terminate, _ =>
    some (.ok (), s.setControl thread.id { s.control thread.id with terminated := true })
  | .releaseWorkerLock, .fail => some (.ok (), s)
  | .releaseWorkerLock, _ =>
    some (.ok (), if s.lock = some (.heartbeat thread.id) then { s with lock := none } else s)
  | .awaitStart, _ => if (s.control thread.id).started then some (.ok (), s) else none
  | .tryLock, .fail => some (.error .eio, s)
  | .tryLock, .contention => some (.ok false, s)
  | .tryLock, _ =>
    match s.lock with
    | some _ => some (.ok false, s)
    | none => some (.ok true, { s with lock := some thread })
  | .openReceipt, .fail => some (.error .eio, s)
  | .openReceipt, _ =>
    match s.path with
    | none => some (.error .enoent, s)
    | some i => some (.ok i, s)
  | .fstat _, .fail => some (.error .eio, s)
  | .fstat fd, _ => some (.ok (calls.stat s fd), s)
  | .readDescriptor _, .fail => some (.error .eio, s)
  | .readDescriptor fd, _ => some (.ok (s.file fd).content, s)
  | .futimes _ _, .fail => some (.error .eio, s)
  | .futimes fd mtimeMs, _ => some (.ok (), s.touch calls thread.id fd mtimeMs)
  | .loadStop, _ => some (.ok (s.control thread.id).stop, s)
  | .loadStatus, _ => some (.ok (s.control thread.id).status, s)
  | .publish status, _ =>
    some (.ok (), s.setControl thread.id { s.control thread.id with status })
  | .storeFailure failure, _ =>
    some (.ok (), s.setControl thread.id { s.control thread.id with failure := some failure })
  | .addCount, _ =>
    some (.ok (), s.setControl thread.id
      { s.control thread.id with count := (s.control thread.id).count + 1 })

/-- A thread runs while its process lives, and a worker until its call has ended it. -/
def runs (s : DeliveryState R) : Thread → Bool
  | .call t => calls.alive s t
  | .heartbeat t => calls.alive s t && !(s.control t).terminated

def exec (thread : Thread) (c : Cmd R) (ch : Choice R) (s : DeliveryState R) :
    Option (c.Response × DeliveryState R) :=
  if runs calls s thread then execLive calls thread s c ch else none

def event : Event → DeliveryState R → Option (DeliveryState R)
  | .tick ms, s => some { s with now := s.now + ms }
  | .die host pid, s =>
    some { s with dead := fun h p ↦ if h = host ∧ p = pid then true else s.dead h p }

def machine : Machine (DeliveryState R) (Cmd R) Cmd.Response Thread (Choice R) Event :=
  ⟨exec calls, event⟩

end Steps

end RabiRoute.DurableDelivery
