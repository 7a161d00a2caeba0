import RabiRoute.PlanStorage.Lease

/-!
# The source functions of `lease.ts`

The synchronous and the asynchronous variant of a function take the same file steps; where they
differ, a `Mode` says which one it is.  Loops that the source runs without a bound are followed for
the number of turns that the run allows.
-/

open Interleave Interleave.Program

namespace RabiRoute.Lease

/-! ## Snapshots -/

def readStableSnapshot (name : Name) : Prog (Option LeaseFileSnapshot) :=
  (do
    let before ← sys (.stat name)
    let raw ← sys (.readFile name)
    let after ← sys (.stat name)
    pure (if before = after then some (LeaseFileSnapshot.mk raw after) else none)).attempt fun error ↦
      if error = LeaseError.enoent then pure none else raise error

/-- `parseLeaseRecord(snapshot.raw)?.owner === owner` -/
def LeaseFileSnapshot.ownedBy (snapshot : LeaseFileSnapshot) (token : OwnerToken) : Bool :=
  (parseLeaseRecord snapshot.raw).any fun record ↦ record.owner = some token

def readStableOwnedSnapshot (name : Name) (token : OwnerToken) :
    Nat → Prog (Option LeaseFileSnapshot)
  | 0 => pure none
  | left + 1 => do
      let snapshot ← readStableSnapshot name
      if snapshot.any (·.ownedBy token) then pure snapshot
      else if snapshot.isNone then do
        let found ← sys (.exists name)
        if found ∧ 0 < left then
          sys .wait
          readStableOwnedSnapshot name token left
        else pure snapshot
      else pure snapshot

def readLeaseMetadata (name : Name) : Prog (Option LeaseRecord) :=
  (do
    let raw ← sys (.readFile name)
    pure (parseLeaseRecord raw)).attempt fun _ ↦ pure none

/-! ## Which files may be reclaimed -/

section Recoverable

variable (hostname : HostName)

def sameHost (record : LeaseRecord) : Bool :=
  record.host.any fun host ↦ host.lower = hostname.lower

def sameHostProcessAlive (record : LeaseRecord) : Prog (Option Bool) :=
  if sameHost hostname record then
    match record.pid with
    | none => pure none
    | some pid => if pid = 0 then pure none else sys (.kill pid)
  else pure none

/-- The last lines of `isRecoverableSnapshot`: the lease of another host, by its times. -/
def expiredElsewhere (record : LeaseRecord) (snapshot : LeaseFileSnapshot) (now : Nat) : Bool :=
  if sameHost hostname record then false
  else if record.schemaVersion ≠ some 2 ∨ !record.renewsByMtime then false
  else
    match record.expiresAt, record.leaseDurationMs with
    | some expiresAt, some leaseDurationMs =>
      if leaseDurationMs < planLockHeartbeatMs ∨ 24 * 60 * 60 * 1000 < leaseDurationMs then false
      else decide (expiresAt ≤ now ∧ snapshot.stat.mtimeMs + leaseDurationMs ≤ now)
    | _, _ => false

def isRecoverableSnapshot (snapshot : LeaseFileSnapshot) (now : Nat) : Prog Bool :=
  match parseLeaseRecord snapshot.raw with
  | none => pure false
  | some record =>
    if record.owner.isNone || record.host.isNone then pure false
    else do
      let localProcessAlive ← sameHostProcessAlive hostname record
      match localProcessAlive with
      | some running => pure (!running)
      | none => pure (expiredElsewhere hostname record snapshot now)

def isRecoverableUnpublishedSnapshot (snapshot : LeaseFileSnapshot) (now : Nat) : Prog Bool :=
  if (parseLeaseRecord snapshot.raw).isSome then isRecoverableSnapshot hostname snapshot now
  else pure (decide (snapshot.stat.mtimeMs + planLockExpiryMs ≤ now))

def reclaimUnpublishedFile (name : Name) : Prog Bool := do
  let before ← readStableSnapshot name
  match before with
  | none => pure true
  | some snapshot => do
      let now ← sys .dateNow
      let recoverable ← isRecoverableUnpublishedSnapshot hostname snapshot now
      if !recoverable then pure false
      else do
        let after ← readStableSnapshot name
        if after ≠ some snapshot then pure false
        else
          (do
            sys (.unlink name)
            pure true).attempt fun error ↦
              if error = LeaseError.enoent then pure true else raise error

def reclaimOrphans : List Name → Prog Unit
  | [] => pure ()
  | name :: names => do
      let _ ← reclaimUnpublishedFile hostname name
      reclaimOrphans names

def reclaimOrphanCandidates : Prog Unit := do
  let names ← sys .readdir
  reclaimOrphans hostname names

end Recoverable

/-! ## Owner records -/

section Calls

variable (calls : Calls) (t : CallId)

def recordFor (kind : RecordKind) (token : OwnerToken) (leaseDurationMs : Nat) :
    Prog LeaseRecord := do
  let createdAt ← sys .dateNow
  pure
    { schemaVersion := some 2
      kind := some kind
      owner := some token
      host := some calls.hostname
      pid := some (calls.pid t)
      createdAt := some createdAt
      expiresAt := some (createdAt + leaseDurationMs)
      leaseDurationMs := some leaseDurationMs
      renewsByMtime := true }

def writeRecord (name : Name) (record : LeaseRecord) : Prog Unit := do
  let descriptor ← sys (.openExclusive name)
  (sys (.writeRecord descriptor record)).ensure (sys (.close descriptor))

/-! ## The reclaim fence -/

def acquireReclaimFenceIn (token : OwnerToken) : Nat → Prog Bool
  | 0 => pure false
  | left + 1 =>
    (do
      let record ← recordFor calls t .planStorageReclaimFence token planLockExpiryMs
      writeRecord .fence record
      pure true).attempt fun error ↦
        if error ≠ LeaseError.eexist then raise error
        else if left = 0 then pure false
        else do
          let reclaimed ← reclaimUnpublishedFile calls.hostname .fence
          if reclaimed then acquireReclaimFenceIn token left else pure false

def acquireReclaimFence (token : OwnerToken) : Prog Bool :=
  acquireReclaimFenceIn calls t token 2

def releaseReclaimFenceSync (token : OwnerToken) : Prog Unit :=
  (do
    let record : Option LeaseRecord ← readLeaseMetadata .fence
    if record.bind (·.owner) = some token then sys (.unlink .fence)
    else pure ()).attempt fun error ↦
      if error = LeaseError.enoent then pure () else raise error

/-- `releaseReclaimFence`, which reads a stable snapshot instead. -/
def releaseReclaimFenceAsync (token : OwnerToken) : Prog Unit :=
  (do
    let snapshot : Option LeaseFileSnapshot ← readStableSnapshot .fence
    if snapshot.any (LeaseFileSnapshot.ownedBy · token) then sys (.unlink .fence)
    else pure ()).attempt fun error ↦
      if error = LeaseError.enoent then pure () else raise error

def releaseReclaimFence : Mode → OwnerToken → Prog Unit
  | .sync => releaseReclaimFenceSync
  | .async => releaseReclaimFenceAsync

/-! ## Replacing a dead owner's lock -/

/-- The locals of `replaceRecoverableLock` that its `finally` reads. -/
structure Fencing where
  staleLinked : Bool
  detached : Bool
  published : Bool

/-- A step of a `try` block: its error leaves with the locals of that moment. -/
def during {L α : Type} (locals : L) (p : Prog α) :
    Program Cmd Cmd.Response (L × LeaseError) α :=
  p.handle ret fun error ↦ raise (locals, error)

/-- The `try` block of `replaceRecoverableLock`; it ends with its locals and what it returns. -/
def detachAndPublish (observed : LeaseFileSnapshot) (candidate stale : Nat) :
    Program Cmd Cmd.Response (Fencing × LeaseError) (Fencing × Bool) := do
  let idle : Fencing := ⟨false, false, false⟩
  let checked ← during idle (readStableSnapshot .lock)
  if checked ≠ some observed then pure (idle, false)
  else
    let now ← during idle (sys .dateNow)
    let recoverable ← during idle (isRecoverableSnapshot calls.hostname observed now)
    if !recoverable then pure (idle, false)
    else
      during idle (sys (.rename .lock (.stale stale)))
      let detached : Fencing := ⟨true, true, false⟩
      let linked ← during detached (readStableSnapshot (.stale stale))
      if linked ≠ some observed then raise (detached, .renewedDuringFencing)
      else
        during detached (sys (.link (.candidate candidate) .lock))
        let published : Fencing := ⟨true, true, true⟩
        let fenced ← during published (readStableSnapshot (.stale stale))
        if fenced ≠ some observed then raise (published, .renewedDuringFencing)
        else
          let current ← during published (readLeaseMetadata .lock)
          if current.bind (·.owner) ≠ some (.lease (calls.owner t)) then
            raise (published, .lostCandidate)
          else pure (⟨true, false, true⟩, true)

/-- The inner `try` of its `finally` block. -/
def restoreAndClean (stale : Nat) (locals : Fencing) : Prog Unit := do
  if locals.detached then
    if locals.published then
      let current ← readLeaseMetadata .lock
      if current.bind (·.owner) = some (.lease (calls.owner t)) then sys (.unlink .lock)
      else pure ()
    else pure ()
    sys (.link (.stale stale) .lock)
  else pure ()
  if locals.staleLinked then
    (sys (.unlink (.stale stale))).attempt fun error ↦
      if error = LeaseError.enoent then pure () else raise error
  else pure ()

def finishFencing (stale : Nat) (locals : Fencing) : Prog Unit :=
  (restoreAndClean calls t stale locals).ensure
    (releaseReclaimFence (calls.mode t) (.reclaim (calls.owner t)))

def replaceRecoverableLock (candidate : Nat) : Prog Bool := do
  let observed ← readStableSnapshot .lock
  match observed with
  | none => pure false
  | some observed => do
      let now ← sys .dateNow
      let recoverable ← isRecoverableSnapshot calls.hostname observed now
      if !recoverable then pure false
      else do
        let fenced ← acquireReclaimFence calls t (.reclaim (calls.owner t))
        if !fenced then pure false
        else do
          let stale ← sys .randomUUID
          (detachAndPublish calls t observed candidate stale).handle
            (fun (locals, outcome) ↦ do
              finishFencing calls t stale locals
              pure outcome)
            (fun (locals, error) ↦ do
              finishFencing calls t stale locals
              raise error)

/-! ## Releasing -/

/-- The `try` block of `releaseOwnedLease`; it ends with its local `moved`. -/
def moveAndDrop (before : LeaseFileSnapshot) (released : Nat) :
    Program Cmd Cmd.Response (Bool × LeaseError) Bool := do
  let checked ← during false (readStableSnapshot .lock)
  if checked ≠ some before then pure false
  else
    during false (sys (.rename .lock (.stale released)))
    let moved ← during true (readStableSnapshot (.stale released))
    if moved ≠ some before then
      during true (sys (.rename (.stale released) .lock))
      pure false
    else
      during true (sys (.unlink (.stale released)))
      pure false

def finishRelease (released : Nat) (moved : Bool) : Prog Unit := do
  if moved then
    let replaced ← sys (.exists .lock)
    if !replaced then sys (.rename (.stale released) .lock) else pure ()
  else pure ()
  releaseReclaimFenceSync (.release (calls.owner t))

def releaseOwnedLease : Prog Unit := do
  sys .beginRelease
  let before ← readStableSnapshot .lock
  match before with
  | none => pure ()
  | some before =>
    if !before.ownedBy (.lease (calls.owner t)) then pure ()
    else do
      let fenced ← acquireReclaimFence calls t (.release (calls.owner t))
      if !fenced then pure ()
      else do
        let released ← sys .randomUUID
        (moveAndDrop before released).handle
          (fun moved ↦ finishRelease calls t released moved)
          (fun (moved, error) ↦ do
            finishRelease calls t released moved
            raise error)

/-! ## The heartbeat -/

def assertHealthy (phase : Phase) : Prog Unit := do
  let status ← sys .loadStatus
  if status ≠ HeartbeatStatus.active then
    let failure ← sys .loadFailure
    raise (.leaseLost failure phase)
  else pure ()

def startSyncLeaseHeartbeat : Prog Unit := do
  sys .startWorker
  let status ← sys (.awaitStatus .starting)
  if status ≠ HeartbeatStatus.active then
    sys .requestStop
    let failure ← sys .loadFailure
    raise (.leaseLost failure
      (if status = HeartbeatStatus.starting then .heartbeatStartup else .initialRenewal))
  else pure ()

/-- `heartbeat.stop()` -/
def stopHeartbeat : Prog Unit := do
  sys .requestStop
  let status ← sys (.awaitStatus .active)
  if status ≠ HeartbeatStatus.stopped then
    let failure ← sys .loadFailure
    raise (.leaseLost failure
      (if status = HeartbeatStatus.active then .finalRenewalTimeout else .finalRenewal))
  else pure ()

/-- The last part of `renew()`, once the descriptor's record is the call's own. -/
def renewOwnRecord (descriptor : Nat) (after : Stat) (record : LeaseRecord) :
    Program Cmd Cmd.Response (Option Nat × LeaseError) Nat := do
  let opened := some descriptor
  let fenced ← during opened (sys (.exists .fence))
  if fenced then raise (opened, .heartbeat .fenced)
  else
    match record.leaseDurationMs with
    | none => raise (opened, .heartbeat .invalid)
    | some leaseDurationMs =>
      if leaseDurationMs = 0 then raise (opened, .heartbeat .invalid)
      else
        let now ← during opened (sys .dateNow)
        if after.mtimeMs + leaseDurationMs ≤ now then raise (opened, .heartbeat .expired)
        else
          let now' ← during opened (sys .dateNow)
          during opened (sys (.futimes descriptor (max now' (after.mtimeMs + 1))))
          let renewed ← during opened (sys (.fstat descriptor))
          if renewed.mtimeMs ≤ after.mtimeMs then raise (opened, .heartbeat .invalid)
          else
            let now'' ← during opened (sys .dateNow)
            if renewed.mtimeMs + leaseDurationMs ≤ now'' then
              raise (opened, .heartbeat .expired)
            else
              let current ← during opened (sys (.stat .lock))
              if renewed.ino ≠ current.ino then raise (opened, .heartbeat .ownerChanged)
              else
                let currentRaw ← during opened (sys (.readFile .lock))
                if (parseLeaseRecord currentRaw).bind (·.owner) ≠
                    some (.lease (calls.owner t)) then
                  raise (opened, .heartbeat .ownerChanged)
                else
                  during opened (sys .addCount)
                  pure descriptor

/-- One `renew()` of the worker up to its `catch`. -/
def renewSteps : Program Cmd Cmd.Response (Option Nat × LeaseError) Nat := do
  let descriptor ← during none (sys .openLock)
  let opened := some descriptor
  let before ← during opened (sys (.fstat descriptor))
  let raw ← during opened (sys (.readDescriptor descriptor))
  let after ← during opened (sys (.fstat descriptor))
  if before ≠ after then raise (opened, .heartbeat .invalid)
  else
    match parseLeaseRecord raw with
    | none => raise (opened, .heartbeat .invalid)
    | some record =>
      if record.schemaVersion ≠ some 2 ∨ !record.renewsByMtime then
        raise (opened, .heartbeat .invalid)
      else if record.owner ≠ some (.lease (calls.owner t)) then
        raise (opened, .heartbeat .ownerChanged)
      else renewOwnRecord calls t descriptor after record

/-- The failure code that the worker's `catch` assigns. -/
def renewalFailure : LeaseError → HeartbeatFailure
  | .heartbeat failure => failure
  | .enoent => .missing
  | _ => .io

/-- `fail(code)`; it answers `false`. -/
def failHeartbeat (failure : HeartbeatFailure) : Prog Bool := do
  let status ← sys .loadStatus
  if status = HeartbeatStatus.failed then pure false
  else do
    sys (.storeFailure failure)
    sys (.publish .failed)
    pure false

/-- The `finally` of `renew()`: a failing close counts only when nothing else failed. -/
def closeDescriptor (descriptor : Option Nat) (failure : Option HeartbeatFailure) :
    Prog (Option HeartbeatFailure) :=
  match descriptor with
  | none => pure failure
  | some fd =>
    (do
      sys (.close fd)
      pure failure).attempt fun _ ↦ pure (some (failure.getD .io))

def renew : Prog Bool := do
  let failure ← (renewSteps calls t).handle
    (fun descriptor ↦ closeDescriptor (some descriptor) none)
    (fun (descriptor, error) ↦ closeDescriptor descriptor (some (renewalFailure error)))
  match failure with
  | none => pure true
  | some failure => failHeartbeat failure

/-- The worker's loop; it ends when the call asks it to stop or a renewal fails. -/
def heartbeatLoop : Nat → Prog Unit
  | 0 => raise .stillWaiting
  | turns + 1 => do
      let stop ← sys .loadStop
      if stop then pure ()
      else do
        sys .wait
        let stop ← sys .loadStop
        if stop then pure ()
        else do
          let renewed ← renew calls t
          if renewed then heartbeatLoop turns else pure ()

/-- The worker of `SYNC_LEASE_HEARTBEAT_WORKER_SOURCE`. -/
def heartbeatWorker : Prog Unit := do
  sys .awaitStart
  let renewed ← renew calls t
  if renewed then
    sys (.publish .active)
    heartbeatLoop calls t (calls.renewals t)
    let status ← sys .loadStatus
    if status = HeartbeatStatus.active then
      let final ← renew calls t
      if final then sys (.publish .stopped) else pure ()
    else pure ()
  else pure ()

/-! ## The transaction -/

def checkFence : Prog Unit := do
  let fenced ← sys (.exists .fence)
  if fenced then raise (.leaseLost (some .fenced) .repositoryCheckpoint) else pure ()

def assertPlanStorageLeaseOwner : Prog Unit := do
  assertHealthy .repositoryCheckpoint
  checkFence
  let snapshot ← readStableOwnedSnapshot .lock (.lease (calls.owner t)) 5
  match snapshot with
  | none => raise (.leaseLost (some .ownerChanged) .repositoryCheckpoint)
  | some snapshot =>
    match parseLeaseRecord snapshot.raw with
    | none => raise (.leaseLost (some .ownerChanged) .repositoryCheckpoint)
    | some record =>
      if record.owner ≠ some (.lease (calls.owner t)) then
        raise (.leaseLost (some .ownerChanged) .repositoryCheckpoint)
      else do
        match record.leaseDurationMs with
        | some leaseDurationMs =>
          if record.schemaVersion = some 2 ∧ record.renewsByMtime then
            let now ← sys .dateNow
            if snapshot.stat.mtimeMs + leaseDurationMs ≤ now then
              raise (.leaseLost (some .expired) .repositoryCheckpoint)
            else pure ()
          else pure ()
        | none => pure ()
        assertHealthy .repositoryCheckpoint
        checkFence

/-- The caller's action: some repository checkpoints, and then its own success or failure. -/
def runAction : Nat → Prog Unit
  | 0 => sys .action
  | checkpoints + 1 => do
      assertPlanStorageLeaseOwner calls t
      runAction checkpoints

/-- `finalizationErrors.push(error)` in place of a throw. -/
def collect (p : Prog Unit) : Prog (Option LeaseError) :=
  (do
    p
    pure none).attempt fun error ↦ pure (some error)

/-- What the `finalizationErrors` do to the settlement. -/
def throwFinalization : Option LeaseError → Option LeaseError → Prog Unit
  | none, none => pure ()
  | some error, none => raise error
  | none, some error => raise error
  | some first, some second => raise (.finalization (first.isLeaseLost || second.isLeaseLost))

/-- The `finally` block of `withPlanStorageLease`; `heartbeat` says whether one has started. -/
def finalize (heartbeat : Bool) : Prog Unit := do
  let stopError ← (if heartbeat then collect stopHeartbeat else pure none : Prog _)
  if calls.mode t = Mode.sync then sys (.setActive false) else pure ()
  let releaseError ← collect (releaseOwnedLease calls t)
  throwFinalization stopError releaseError

def transaction : Program Cmd Cmd.Response (Bool × LeaseError) Unit := do
  during false startSyncLeaseHeartbeat
  during true (if calls.mode t = Mode.sync then sys (.setActive true) else pure ())
  during true (assertPlanStorageLeaseOwner calls t)
  during true (runAction calls t (calls.checkpoints t))
  during true (assertHealthy .transaction)
  during true (assertPlanStorageLeaseOwner calls t)

def runTransaction : Prog Unit :=
  (transaction calls t).handle
    (fun _ ↦ finalize calls t true)
    (fun (heartbeat, error) ↦ do
      finalize calls t heartbeat
      raise error)

/-! ## Acquiring -/

def fencePresent : Mode → Prog Bool
  | .sync => sys (.exists .fence)
  | .async =>
    (do
      let _ ← sys (.stat .fence)
      pure true).attempt fun error ↦
        if error = LeaseError.enoent then pure false else raise error

/-- The `while (true)` of `withPlanStorageLease`; every finite prefix of it is some `turns`. -/
def acquireLoop (candidate deadline : Nat) : Nat → Prog Unit
  | 0 => raise .stillWaiting
  | turns + 1 => do
      let now ← sys .dateNow
      if deadline ≤ now then raise .timedOut
      else do
        let fenced ← fencePresent (calls.mode t)
        if fenced then do
          let _ ← reclaimUnpublishedFile calls.hostname .fence
          sys .wait
          acquireLoop candidate deadline turns
        else do
          let acquired ← (do
            sys (.link (.candidate candidate) .lock)
            pure true).attempt fun error ↦
              if error ≠ LeaseError.eexist then raise error
              else do
                let replaced ← replaceRecoverableLock calls t candidate
                if replaced then pure true
                else do
                  sys .wait
                  pure false
          if acquired then pure () else acquireLoop candidate deadline turns

/-- The `finally` of the acquisition. -/
def dropCandidate (candidate : Nat) (acquired : Bool) : Prog Unit :=
  (sys (.unlink (.candidate candidate))).attempt fun error ↦
    if error = LeaseError.enoent then pure ()
    else do
      if acquired then releaseOwnedLease calls t else pure ()
      raise error

def acquirePlanStorageLease : Prog Unit := do
  reclaimOrphanCandidates calls.hostname
  let candidate ← sys .randomUUID
  let record ← recordFor calls t .planStorageLease (.lease (calls.owner t)) planLockExpiryMs
  writeRecord (.candidate candidate) record
  let start ← sys .dateNow
  (do
    acquireLoop calls t candidate (start + calls.timeoutMs t) (calls.turns t)
    sys .enter).handle
      (fun _ ↦ dropCandidate calls t candidate true)
      (fun error ↦ do
        dropCandidate calls t candidate false
        raise error)

/-- One `withPlanStorageLease` or `withPlanStorageLeaseAsync`, to its settlement. -/
def withPlanStorageLease : Prog Unit :=
  (do
    if calls.mode t = Mode.sync then
      let reentrant ← sys .isActive
      if reentrant then raise .reentrant else pure ()
    else pure ()
    acquirePlanStorageLease calls t
    runTransaction calls t).ensure (sys .leave)

def program : Thread → Prog Unit
  | .call t => if t < calls.count then withPlanStorageLease calls t else pure ()
  | .heartbeat t => if t < calls.count then heartbeatWorker calls t else pure ()

/-- No call has started and the lock directory is empty. -/
def initial (now : Nat) : Config LeaseState Cmd Cmd.Response Thread LeaseError Unit where
  shared :=
    { now
      dead := fun _ ↦ false
      names := fun _ ↦ none
      file := fun _ ↦ ⟨.unwritten, 0, 0⟩
      nextInode := 0
      nextUuid := 0
      control := fun _ ↦ ⟨false, false, .starting, none, 0⟩
      active := fun _ ↦ false
      holding := fun _ ↦ false
      releasing := fun _ ↦ false
      initialising := fun _ ↦ none
      seen := fun _ ↦ none
      drawnBy := fun _ ↦ 0
      used := fun _ ↦ false }
  prog := program calls

end Calls

end RabiRoute.Lease
