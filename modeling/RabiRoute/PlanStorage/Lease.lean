import RabiRoute.Interleave.Machine
import RabiRoute.Shared.Host

/-!
# The plan storage lease of `lease.ts`

Any number of calls of one host contend for one plan lock.  The lock, the reclaim fence, the
candidates and the stale files are names in one directory, and a name is a hard link to a file: a
link or a rename moves an owner record without writing it.  A call and its heartbeat worker are two
programs of single file steps in one process.
-/

open Interleave Interleave.Program

namespace RabiRoute.Lease

def planLockExpiryMs : Nat := 60000
def planLockHeartbeatMs : Nat := 10000

inductive Name where
  | lock
  | fence
  | candidate (uuid : Nat)
  | stale (uuid : Nat)
deriving DecidableEq

inductive RecordKind where
  | planStorageLease
  | planStorageCandidate
  | planStorageReclaimFence
deriving DecidableEq

/-- `${os.hostname()}:${process.pid}:${randomUUID()}`; each call draws its own UUID. -/
structure LeaseOwner where
  host : HostName
  pid : Pid
  uuid : CallId
deriving DecidableEq

/-- The `owner` texts: a lease's, `${owner}:reclaim` and `${owner}:release`. -/
inductive OwnerToken where
  | lease (owner : LeaseOwner)
  | reclaim (owner : LeaseOwner)
  | release (owner : LeaseOwner)
deriving DecidableEq

def OwnerToken.leaseOwner : OwnerToken → LeaseOwner
  | .lease owner => owner
  | .reclaim owner => owner
  | .release owner => owner

structure LeaseRecord where
  schemaVersion : Option Nat
  kind : Option RecordKind
  owner : Option OwnerToken
  host : Option HostName
  pid : Option Pid
  createdAt : Option Nat
  expiresAt : Option Nat
  leaseDurationMs : Option Nat
  /-- `renewal === "mtime"` -/
  renewsByMtime : Bool
deriving DecidableEq

/-- The bytes of a file: none yet, a write cut short after some bytes, or a whole record. -/
inductive LeaseContent where
  | unwritten
  | torn (bytes : Nat)
  | record (r : LeaseRecord)
deriving DecidableEq

def RecordKind.textLength : RecordKind → Nat
  | .planStorageLease => 18
  | .planStorageCandidate => 22
  | .planStorageReclaimFence => 26

def OwnerToken.textLength (token : OwnerToken) : Nat :=
  let owner := token.leaseOwner
  let suffix := match token with | .lease _ => 0 | _ => 8
  owner.host.length + 1 + digits owner.pid + 1 + 36 + suffix

/-- A member `"name":value` of a JSON object and the comma or brace before it. -/
def memberLength {α : Type} (nameLength : Nat) (value : Option α) (valueLength : α → Nat) : Nat :=
  match value with
  | none => 0
  | some v => 1 + (nameLength + 2) + 1 + valueLength v

/-- The length of `JSON.stringify(record)` and its newline. -/
def LeaseRecord.textLength (r : LeaseRecord) : Nat :=
  memberLength 13 r.schemaVersion digits + memberLength 4 r.kind (·.textLength + 2) +
    memberLength 5 r.owner (·.textLength + 2) + memberLength 4 r.host (·.length + 2) +
    memberLength 3 r.pid digits + memberLength 9 r.createdAt digits +
    memberLength 9 r.expiresAt digits + memberLength 15 r.leaseDurationMs digits +
    (if r.renewsByMtime then 18 else 0) + 2

def LeaseContent.size : LeaseContent → Nat
  | .unwritten => 0
  | .torn bytes => bytes
  | .record r => r.textLength

def parseLeaseRecord : LeaseContent → Option LeaseRecord
  | .record r => some r
  | _ => none

structure LeaseFile where
  content : LeaseContent
  mtimeMs : Nat
  /-- The call whose exclusive create made this file (not on disk). -/
  creator : CallId

structure Stat where
  mtimeMs : Nat
  size : Nat
  ino : Nat
deriving DecidableEq

def LeaseFile.stat (f : LeaseFile) (ino : Nat) : Stat := ⟨f.mtimeMs, f.content.size, ino⟩

structure LeaseFileSnapshot where
  raw : LeaseContent
  stat : Stat
deriving DecidableEq

/-- What the last `stat` of the fence by a call met (not on disk). -/
structure Sighting where
  ino : Nat
  /-- A live call had created this fence and not yet written its owner record. -/
  unfinished : Bool

inductive HeartbeatStatus where
  | starting
  | active
  | failed
  | stopped
deriving DecidableEq

inductive HeartbeatFailure where
  | missing
  | invalid
  | ownerChanged
  | fenced
  | expired
  | io
deriving DecidableEq

/-- The words a call shares with its heartbeat worker. -/
structure HeartbeatControl where
  started : Bool
  stop : Bool
  status : HeartbeatStatus
  failure : Option HeartbeatFailure
  count : Nat

/-- One host: its clock and processes, the lock directory and what the calls keep in memory. -/
structure LeaseState where
  now : Nat
  dead : Pid → Bool
  names : Name → Option Nat
  file : Nat → LeaseFile
  nextInode : Nat
  nextUuid : Nat
  control : CallId → HeartbeatControl
  /-- `activeSyncLeases.has(lockPath)` in a process. -/
  active : Pid → Bool
  /-- The calls that are past their acquisition and have not released the lock (not on disk). -/
  holding : CallId → Bool
  /-- The calls that have begun `releaseOwnedLease` (not on disk). -/
  releasing : CallId → Bool
  /-- The file that a call has created and is still initialising (not on disk). -/
  initialising : CallId → Option Nat
  seen : CallId → Option Sighting
  /-- The call that drew a UUID (not on disk). -/
  drawnBy : Nat → CallId
  /-- The names that have named a file (not on disk). -/
  used : Name → Bool

/-- The `phase` of a lost lease. -/
inductive Phase where
  | transaction
  | heartbeatStartup
  | initialRenewal
  | finalRenewalTimeout
  | finalRenewal
  | repositoryCheckpoint
deriving DecidableEq

inductive LeaseError where
  | eexist
  | enoent
  /-- Any other failure of a file operation. -/
  | eio
  | timedOut
  | reentrant
  /-- `Plan storage stale lease renewed during fencing`. -/
  | renewedDuringFencing
  /-- `Plan storage stale-lease fencing lost its candidate`. -/
  | lostCandidate
  /-- `PLAN_STORAGE_LEASE_LOST`; no detail is "heartbeat worker did not confirm ownership". -/
  | leaseLost (detail : Option HeartbeatFailure) (phase : Phase)
  /-- An `AggregateError` of two finalization errors, and whether it carries the lost code. -/
  | finalization (leaseLost : Bool)
  | actionFailed
  /-- The `leaseFailure(code)` of a heartbeat. -/
  | heartbeat (failure : HeartbeatFailure)
  /-- The caller has used the turns of its loop that this run looks at. -/
  | stillWaiting
deriving DecidableEq

def LeaseError.isLeaseLost : LeaseError → Bool
  | .leaseLost _ _ => true
  | _ => false

inductive Cmd where
  | dateNow
  | randomUUID
  | openExclusive (name : Name)
  | writeRecord (fd : Nat) (r : LeaseRecord)
  | close (fd : Nat)
  | stat (name : Name)
  | readFile (name : Name)
  | exists (name : Name)
  | link (source target : Name)
  | rename (source target : Name)
  | unlink (name : Name)
  | readdir
  | kill (pid : Pid)
  | wait
  -- the heartbeat worker's file steps
  | openLock
  | fstat (fd : Nat)
  | readDescriptor (fd : Nat)
  | futimes (fd : Nat) (mtimeMs : Nat)
  -- the words shared by a call and its worker, and the process's table of active leases
  | startWorker
  | awaitStart
  | awaitStatus (expected : HeartbeatStatus)
  | loadStatus
  | loadFailure
  | loadStop
  | requestStop
  | publish (status : HeartbeatStatus)
  | storeFailure (failure : HeartbeatFailure)
  | addCount
  | isActive
  | setActive (b : Bool)
  -- the transaction, and marks of a call's progress that are not file steps
  | action
  | enter
  | beginRelease
  | leave

abbrev Cmd.Val : Cmd → Type
  | .dateNow => Nat
  | .randomUUID => Nat
  | .openExclusive _ => Nat
  | .stat _ => Stat
  | .readFile _ => LeaseContent
  | .exists _ => Bool
  | .readdir => List Name
  | .kill _ => Option Bool
  | .openLock => Nat
  | .fstat _ => Stat
  | .readDescriptor _ => LeaseContent
  | .awaitStatus _ => HeartbeatStatus
  | .loadStatus => HeartbeatStatus
  | .loadFailure => Option HeartbeatFailure
  | .loadStop => Bool
  | .isActive => Bool
  | _ => Unit

abbrev Cmd.Response : Cmd → Type := Fallible LeaseError Cmd.Val

abbrev Prog := Program Cmd Cmd.Response LeaseError

def sys (c : Cmd) : Prog c.Val := performOrThrow c

/-- What the outside world decides at a step. -/
inductive Choice where
  | ok
  | fail
  /-- The write stops after some bytes. -/
  | tornWrite (bytes : Nat)
  /-- The record is written and `fsyncSync` fails. -/
  | syncFail
  /-- The pid of a dead process names a process again (or `kill` answers `EPERM`). -/
  | pidReused
  /-- `kill` fails with a code that says nothing. -/
  | killUnknown
  /-- Windows answers `EPERM` for a name that is being deleted; the source counts it as taken. -/
  | contention
  /-- The wait for a status ends at its deadline. -/
  | timeout
deriving DecidableEq

inductive Event where
  | tick (ms : Nat)
  | die (pid : Pid)

inductive Thread where
  | call (t : CallId)
  | heartbeat (t : CallId)
deriving DecidableEq

def Thread.id : Thread → CallId
  | .call t => t
  | .heartbeat t => t

/-- `withPlanStorageLease` or `withPlanStorageLeaseAsync`. -/
inductive Mode where
  | sync
  | async
deriving DecidableEq

/-- The calls of a run: the process of each one, and how far its loops are followed. -/
structure Calls where
  count : Nat
  hostname : HostName
  mode : CallId → Mode
  pid : CallId → Pid
  pid_pos : ∀ t, 0 < pid t
  timeoutMs : CallId → Nat
  turns : CallId → Nat
  renewals : CallId → Nat
  /-- The `assertPlanStorageLeaseOwner` checkpoints of its transaction. -/
  checkpoints : CallId → Nat

namespace Calls

variable (calls : Calls)

def owner (t : CallId) : LeaseOwner := ⟨calls.hostname, calls.pid t, t⟩

def alive (s : LeaseState) (t : CallId) : Bool := !s.dead (calls.pid t)

/-- A live call is still between the exclusive create of this file and its owner record. -/
def unfinished (s : LeaseState) (i : Nat) : Bool :=
  let creator := (s.file i).creator
  calls.alive s creator && decide (s.initialising creator = some i)

end Calls

namespace LeaseState

def setFile (s : LeaseState) (i : Nat) (f : LeaseFile) : LeaseState :=
  { s with file := fun j ↦ if j = i then f else s.file j }

def setName (s : LeaseState) (name : Name) (target : Option Nat) : LeaseState :=
  { s with
    names := fun other ↦ if other = name then target else s.names other
    used := fun other ↦ if other = name then s.used other || target.isSome else s.used other }

def setControl (s : LeaseState) (t : CallId) (control : HeartbeatControl) : LeaseState :=
  { s with control := fun u ↦ if u = t then control else s.control u }

def setActive (s : LeaseState) (pid : Pid) (b : Bool) : LeaseState :=
  { s with active := fun p ↦ if p = pid then b else s.active p }

def setHolding (s : LeaseState) (t : CallId) (b : Bool) : LeaseState :=
  { s with holding := fun u ↦ if u = t then b else s.holding u }

def setReleasing (s : LeaseState) (t : CallId) (b : Bool) : LeaseState :=
  { s with releasing := fun u ↦ if u = t then b else s.releasing u }

def setInitialising (s : LeaseState) (t : CallId) (i : Option Nat) : LeaseState :=
  { s with initialising := fun u ↦ if u = t then i else s.initialising u }

def setSeen (s : LeaseState) (t : CallId) (g : Option Sighting) : LeaseState :=
  { s with seen := fun u ↦ if u = t then g else s.seen u }

/-- `randomUUID()` answers `nextUuid`. -/
def drawUuid (s : LeaseState) (t : CallId) : LeaseState :=
  { s with
    nextUuid := s.nextUuid + 1
    drawnBy := fun n ↦ if n = s.nextUuid then t else s.drawnBy n }

/-- `fs.openSync(name, "wx")` when the name is free. -/
def create (s : LeaseState) (t : CallId) (name : Name) : LeaseState :=
  (({ s with nextInode := s.nextInode + 1 }.setName name (some s.nextInode)).setFile s.nextInode
    ⟨.unwritten, s.now, t⟩).setInitialising t (some s.nextInode)

/-- The descriptor's file gets its bytes; the call that wrote them has initialised it. -/
def write (s : LeaseState) (t : CallId) (fd : Nat) (content : LeaseContent) : LeaseState :=
  (s.setFile fd { s.file fd with content, mtimeMs := s.now }).setInitialising t none

/-- `rename`: the target names the file from now on.  A call that renames its own lock away has
released it. -/
def rename (s : LeaseState) (t : CallId) (source target : Name) (i : Nat) : LeaseState :=
  let linked := s.setName target (some i)
  let kept := if source = .lock ∧ (s.file i).creator = t then linked.setHolding t false else linked
  kept.setName source none

/-- The names that `reclaimOrphanCandidates` keeps of a directory listing. -/
def orphanNames (s : LeaseState) : List Name :=
  ((List.range s.nextUuid).flatMap fun n ↦ [.candidate n, .stale n]).filter
    fun name ↦ (s.names name).isSome

end LeaseState

section Steps

variable (calls : Calls)

/-- The effect of one step of a call or of its heartbeat worker. -/
def execLive (t : CallId) (s : LeaseState) : (c : Cmd) → Choice → Option (c.Response × LeaseState)
  | .dateNow, _ => some (.ok s.now, s)
  | .randomUUID, _ => some (.ok s.nextUuid, s.drawUuid t)
  | .openExclusive _, .fail => some (.error .eio, s)
  | .openExclusive _, .contention => some (.error .eexist, s)
  | .openExclusive name, _ =>
    match s.names name with
    | some _ => some (.error .eexist, s)
    | none => some (.ok s.nextInode, s.create t name)
  | .writeRecord _ _, .fail => some (.error .eio, s.setInitialising t none)
  | .writeRecord fd _, .tornWrite bytes => some (.error .eio, s.write t fd (.torn bytes))
  | .writeRecord fd r, .syncFail => some (.error .eio, s.write t fd (.record r))
  | .writeRecord fd r, _ => some (.ok (), s.write t fd (.record r))
  | .close _, .fail => some (.error .eio, s)
  | .close _, _ => some (.ok (), s)
  | .stat _, .fail => some (.error .eio, s)
  | .stat name, _ =>
    match s.names name with
    | none => some (.error .enoent, s)
    | some i =>
      some (.ok ((s.file i).stat i),
        if name = .fence then s.setSeen t (some ⟨i, calls.unfinished s i⟩) else s)
  | .readFile _, .fail => some (.error .eio, s)
  | .readFile name, _ =>
    match s.names name with
    | none => some (.error .enoent, s)
    | some i => some (.ok (s.file i).content, s)
  | .exists _, .fail => some (.ok false, s)
  | .exists name, _ => some (.ok (s.names name).isSome, s)
  | .link _ _, .fail => some (.error .eio, s)
  | .link _ _, .contention => some (.error .eexist, s)
  | .link source target, _ =>
    match s.names source, s.names target with
    | none, _ => some (.error .enoent, s)
    | some _, some _ => some (.error .eexist, s)
    | some i, none => some (.ok (), s.setName target (some i))
  | .rename _ _, .fail => some (.error .eio, s)
  | .rename source target, _ =>
    match s.names source with
    | none => some (.error .enoent, s)
    | some i => some (.ok (), s.rename t source target i)
  | .unlink _, .fail => some (.error .eio, s)
  | .unlink name, _ =>
    match s.names name with
    | none => some (.error .enoent, s)
    | some _ => some (.ok (), s.setName name none)
  | .readdir, .fail => some (.error .eio, s)
  | .readdir, _ => some (.ok s.orphanNames, s)
  | .kill _, .pidReused => some (.ok (some true), s)
  | .kill _, .killUnknown => some (.ok none, s)
  | .kill pid, _ => some (.ok (some (!s.dead pid)), s)
  | .wait, _ => some (.ok (), s)
  | .openLock, .fail => some (.error .eio, s)
  | .openLock, _ =>
    match s.names .lock with
    | none => some (.error .enoent, s)
    | some i => some (.ok i, s)
  | .fstat _, .fail => some (.error .eio, s)
  | .fstat fd, _ => some (.ok ((s.file fd).stat fd), s)
  | .readDescriptor _, .fail => some (.error .eio, s)
  | .readDescriptor fd, _ => some (.ok (s.file fd).content, s)
  | .futimes _ _, .fail => some (.error .eio, s)
  | .futimes fd mtimeMs, _ => some (.ok (), s.setFile fd { s.file fd with mtimeMs })
  | .startWorker, _ =>
    some (.ok (), s.setControl t ⟨true, false, .starting, none, 0⟩)
  | .awaitStart, _ => if (s.control t).started then some (.ok (), s) else none
  | .awaitStatus _, .timeout => some (.ok (s.control t).status, s)
  | .awaitStatus expected, _ =>
    if (s.control t).status = expected then none else some (.ok (s.control t).status, s)
  | .loadStatus, _ => some (.ok (s.control t).status, s)
  | .loadFailure, _ => some (.ok (s.control t).failure, s)
  | .loadStop, _ => some (.ok (s.control t).stop, s)
  | .requestStop, _ => some (.ok (), s.setControl t { s.control t with stop := true })
  | .publish status, _ => some (.ok (), s.setControl t { s.control t with status })
  | .storeFailure failure, _ =>
    some (.ok (), s.setControl t { s.control t with failure := some failure })
  | .addCount, _ =>
    some (.ok (), s.setControl t { s.control t with count := (s.control t).count + 1 })
  | .isActive, _ => some (.ok (s.active (calls.pid t)), s)
  | .setActive b, _ => some (.ok (), s.setActive (calls.pid t) b)
  | .action, .fail => some (.error .actionFailed, s)
  | .action, _ => some (.ok (), s)
  | .enter, _ => some (.ok (), s.setHolding t true)
  | .beginRelease, _ => some (.ok (), s.setReleasing t true)
  | .leave, _ => some (.ok (), s.setHolding t false)

/-- Only the threads of live processes run. -/
def exec (thread : Thread) (c : Cmd) (ch : Choice) (s : LeaseState) :
    Option (c.Response × LeaseState) :=
  if calls.alive s thread.id then execLive calls thread.id s c ch else none

def event : Event → LeaseState → Option LeaseState
  | .tick ms, s => some { s with now := s.now + ms }
  | .die pid, s => some { s with dead := fun p ↦ if p = pid then true else s.dead p }

def machine : Machine LeaseState Cmd Cmd.Response Thread Choice Event := ⟨exec calls, event⟩

end Steps

end RabiRoute.Lease
