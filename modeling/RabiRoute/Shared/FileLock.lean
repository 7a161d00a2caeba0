import RabiRoute.Interleave.Machine
import RabiRoute.Shared.Host

/-!
# The exclusive-create file lock of `filePersistence.ts`

Any number of calls contend for one lock path of one host.  A call is a program of the single file
steps that `acquireFileLockSync`, `reclaimStaleFileLock` and `releaseOwnedFileLock` make, so other
calls, the clock and the death of a process may come between any two of them.
-/

open Interleave Interleave.Program

namespace RabiRoute.FileLock

/-- `${os.hostname()}:${process.pid}:${randomUUID()}`; each call draws its own UUID. -/
structure LockOwner where
  host : HostName
  pid : Pid
  uuid : CallId
deriving DecidableEq

structure FileLockRecord where
  owner : Option LockOwner
  host : Option HostName
  pid : Option Pid
  createdAt : Nat
deriving DecidableEq

/-- The bytes of a lock file: none yet, a write cut short after some bytes, or a whole record. -/
inductive LockContent where
  | unwritten
  | torn (bytes : Nat)
  | record (r : FileLockRecord)
deriving DecidableEq

/-- The length of `JSON.stringify({ owner, host, pid, createdAt })` and its newline. -/
def FileLockRecord.textLength (r : FileLockRecord) : Nat :=
  match r.owner, r.host, r.pid with
  | some o, some host, some pid =>
    10 + (o.host.length + 1 + digits o.pid + 1 + 36) + 10 + host.length + 8 + digits pid + 13 +
      digits r.createdAt + 2
  | _, _, _ => 16 + digits r.createdAt

def LockContent.size : LockContent → Nat
  | .unwritten => 0
  | .torn bytes => bytes
  | .record r => r.textLength

structure LockFile where
  content : LockContent
  mtime : Nat
  /-- The call whose exclusive create made this file (not on disk). -/
  creator : CallId
deriving DecidableEq

structure Stat where
  mtime : Nat
  size : Nat

/-- What the last `statSync` of a call met (not on disk). -/
structure Sighting where
  inode : Nat
  /-- A live call had created this file and not yet written its owner record. -/
  unfinished : Bool
deriving DecidableEq

/-- One host: its clock, its processes and the lock path. -/
structure LockState where
  now : Nat
  dead : Pid → Bool
  path : Option Nat
  file : Nat → LockFile
  nextInode : Nat
  /-- The calls between a successful `acquireFileLockSync` and the end of their release. -/
  holding : CallId → Bool
  /-- The file that a call has created and is still initialising. -/
  initialising : CallId → Option Nat
  seen : CallId → Option Sighting

inductive FsError where
  | eexist
  | enoent
  /-- Any other failure of a file operation. -/
  | eio
  | timedOut
  /-- The call has used the turns of its loop that this run looks at. -/
  | stillWaiting
deriving DecidableEq

inductive Cmd where
  | dateNow
  | openExclusive
  | writeRecord (fd : Nat) (r : FileLockRecord)
  | close (fd : Nat)
  | stat
  | readFile
  | kill (pid : Pid)
  | unlinkStale
  | unlinkOwned
  | wait
  | enter
  | leave

abbrev Cmd.Val : Cmd → Type
  | .dateNow => Nat
  | .openExclusive => Nat
  | .stat => Stat
  | .readFile => LockContent
  | .kill _ => Bool
  | _ => Unit

abbrev Cmd.Response : Cmd → Type := Fallible FsError Cmd.Val

abbrev Prog := Program Cmd Cmd.Response FsError

def sys (c : Cmd) : Prog c.Val := performOrThrow c

/-- What the outside world decides at a step. -/
inductive Choice where
  | ok
  | fail
  /-- The write stops after some bytes. -/
  | tornWrite (bytes : Nat)
  /-- The record is written and `fsyncSync` fails. -/
  | syncFail
  /-- The pid of a dead process names a process again (or `kill` answers `EPERM`). -/
  | pidReused
  /-- Windows refuses to create a file that is being deleted; the source counts it as taken. -/
  | createContention
deriving DecidableEq

inductive Event where
  | tick (ms : Nat)
  | die (pid : Pid)

/-- The calls of a run: the process of each one, its options and the loop turns it may take. -/
structure Calls where
  hostname : HostName
  pid : CallId → Pid
  pid_pos : ∀ t, 0 < pid t
  timeoutMs : CallId → Nat
  staleMs : CallId → Nat
  turns : CallId → Nat

namespace Calls

variable (calls : Calls)

def owner (t : CallId) : LockOwner := ⟨calls.hostname, calls.pid t, t⟩

def ownRecord (t : CallId) (createdAt : Nat) : FileLockRecord :=
  ⟨some (calls.owner t), some calls.hostname, some (calls.pid t), createdAt⟩

def alive (s : LockState) (t : CallId) : Bool := !s.dead (calls.pid t)

/-- A live call is still between the exclusive create of this file and its owner record. -/
def unfinished (s : LockState) (i : Nat) : Bool :=
  let creator := (s.file i).creator
  calls.alive s creator && decide (s.initialising creator = some i)

end Calls

namespace LockState

def setFile (s : LockState) (i : Nat) (f : LockFile) : LockState :=
  { s with file := fun j ↦ if j = i then f else s.file j }

def setHolding (s : LockState) (t : CallId) (b : Bool) : LockState :=
  { s with holding := fun u ↦ if u = t then b else s.holding u }

def setInitialising (s : LockState) (t : CallId) (i : Option Nat) : LockState :=
  { s with initialising := fun u ↦ if u = t then i else s.initialising u }

def setSeen (s : LockState) (t : CallId) (g : Option Sighting) : LockState :=
  { s with seen := fun u ↦ if u = t then g else s.seen u }

/-- `fs.openSync(lockPath, "wx")` when the path names nothing. -/
def create (s : LockState) (t : CallId) : LockState :=
  ({ s with path := some s.nextInode, nextInode := s.nextInode + 1 }.setFile s.nextInode
    ⟨.unwritten, s.now, t⟩).setInitialising t (some s.nextInode)

/-- The descriptor's file gets new bytes; the call that wrote them has initialised it. -/
def write (s : LockState) (t : CallId) (fd : Nat) (content : LockContent) : LockState :=
  (s.setFile fd { s.file fd with content, mtime := s.now }).setInitialising t none

end LockState

section Steps

variable (calls : Calls)

/-- The effect of one file step of call `t`. -/
def execLive (t : CallId) (s : LockState) : (c : Cmd) → Choice → Option (c.Response × LockState)
  | .dateNow, _ => some (.ok s.now, s)
  | .openExclusive, .fail => some (.error .eio, s)
  | .openExclusive, .createContention => some (.error .eexist, s)
  | .openExclusive, _ =>
    match s.path with
    | some _ => some (.error .eexist, s)
    | none => some (.ok s.nextInode, s.create t)
  | .writeRecord _ _, .fail => some (.error .eio, s.setInitialising t none)
  | .writeRecord fd _, .tornWrite bytes => some (.error .eio, s.write t fd (.torn bytes))
  | .writeRecord fd r, .syncFail => some (.error .eio, s.write t fd (.record r))
  | .writeRecord fd r, _ => some (.ok (), s.write t fd (.record r))
  | .close _, .fail => some (.error .eio, s)
  | .close _, _ => some (.ok (), s)
  | .stat, .fail => some (.error .eio, s)
  | .stat, _ =>
    match s.path with
    | none => some (.error .enoent, s.setSeen t none)
    | some i =>
      some (.ok ⟨(s.file i).mtime, (s.file i).content.size⟩,
        s.setSeen t (some ⟨i, calls.unfinished s i⟩))
  | .readFile, .fail => some (.error .eio, s)
  | .readFile, _ =>
    match s.path with
    | none => some (.error .enoent, s)
    | some i => some (.ok (s.file i).content, s)
  | .kill pid, ch => some (.ok (!s.dead pid || decide (ch = .pidReused)), s)
  | .unlinkStale, .fail => some (.error .eio, s)
  | .unlinkStale, _ =>
    match s.path with
    | none => some (.error .enoent, s)
    | some _ => some (.ok (), { s with path := none })
  | .unlinkOwned, .fail => some (.error .eio, s)
  | .unlinkOwned, _ =>
    match s.path with
    | none => some (.error .enoent, s.setHolding t false)
    | some _ => some (.ok (), { s with path := none }.setHolding t false)
  | .wait, _ => some (.ok (), s)
  | .enter, _ => some (.ok (), s.setHolding t true)
  | .leave, _ => some (.ok (), s.setHolding t false)

/-- Only the calls of live processes run. -/
def exec (t : CallId) (c : Cmd) (ch : Choice) (s : LockState) : Option (c.Response × LockState) :=
  if calls.alive s t then execLive calls t s c ch else none

def event : Event → LockState → Option LockState
  | .tick ms, s => some { s with now := s.now + ms }
  | .die pid, s => some { s with dead := fun p ↦ if p = pid then true else s.dead p }

def machine : Machine LockState Cmd Cmd.Response CallId Choice Event := ⟨exec calls, event⟩

end Steps

/-! ## The source functions -/

def readFileLockRecord : Prog (Option FileLockRecord) :=
  (do
    match ← sys .readFile with
    | .record r => pure (some r)
    | _ => raise .eio).attempt fun _ ↦ pure none

def sameHostProcessAlive (hostname : HostName) : Option FileLockRecord → Prog Bool
  | none => pure false
  | some record =>
    if record.host.any (fun host ↦ host.lower ≠ hostname.lower) then pure false
    else
      match record.pid with
      | none => pure false
      | some pid => if pid = 0 then pure false else sys (.kill pid)

def reclaimStaleFileLock (hostname : HostName) (staleMs : Nat) : Prog Bool :=
  (do
    let before ← sys .stat
    let record ← readFileLockRecord
    if ← sameHostProcessAlive hostname record then pure false
    else
      let now ← sys .dateNow
      if now - before.mtime < staleMs then pure false
      else
        let afterRecord ← readFileLockRecord
        let after ← sys .stat
        if afterRecord.bind (·.owner) ≠ record.bind (·.owner) ∨ after.mtime ≠ before.mtime ∨
            after.size ≠ before.size then pure false
        else
          sys .unlinkStale
          pure true).attempt fun error ↦ if error = FsError.enoent then pure true else raise error

def releaseOwnedFileLock (owner : LockOwner) : Prog Unit :=
  (do
    let record ← readFileLockRecord
    if record.bind (·.owner) = some owner then sys .unlinkOwned else pure ()).attempt fun error ↦
      if error = FsError.enoent then pure () else raise error

variable (calls : Calls) (t : CallId)

/-- The exclusive create and the owner record of one loop turn. -/
def createLockFile : Prog Unit := do
  let descriptor ← sys .openExclusive
  (do
    let createdAt ← sys .dateNow
    sys (.writeRecord descriptor (calls.ownRecord t createdAt))).ensure (sys (.close descriptor))

/-- The `while (true)` of `acquireFileLockSync`; every finite prefix of it is some `turns`. -/
def acquireLoop (staleMs deadline : Nat) : Nat → Prog Unit
  | 0 => raise .stillWaiting
  | turns + 1 => do
      let acquired ← (do
        createLockFile calls t
        pure true).attempt fun error ↦
          if error ≠ FsError.eexist then raise error
          else do
            if ← reclaimStaleFileLock calls.hostname staleMs then pure false
            else
              let now ← sys .dateNow
              if deadline ≤ now then raise .timedOut
              else
                sys .wait
                pure false
      if acquired then pure () else acquireLoop staleMs deadline turns

def acquireFileLockSync : Prog Unit := do
  let timeoutMs := max 1 (calls.timeoutMs t)
  let staleMs := max timeoutMs (calls.staleMs t)
  let now ← sys .dateNow
  acquireLoop calls t staleMs (now + timeoutMs) (calls.turns t)

/-- One `withFileLockSync`: the call holds the lock from `enter` until it has released it. -/
def withFileLockSync : Prog Unit := do
  acquireFileLockSync calls t
  sys .enter
  releaseOwnedFileLock (calls.owner t)
  sys .leave

/-- No call has started and the lock path names nothing. -/
def initial (now : Nat) : Config LockState Cmd Cmd.Response CallId FsError Unit where
  shared :=
    { now
      dead := fun _ ↦ false
      path := none
      file := fun _ ↦ ⟨.unwritten, 0, 0⟩
      nextInode := 0
      holding := fun _ ↦ false
      initialising := fun _ ↦ none
      seen := fun _ ↦ none }
  prog := fun t ↦ withFileLockSync calls t

end RabiRoute.FileLock
