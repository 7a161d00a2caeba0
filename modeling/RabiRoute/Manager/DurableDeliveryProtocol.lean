import RabiRoute.Manager.DurableDelivery

/-!
# The source functions of `durableDeliveryIdempotency.ts`

An awaited callback is two steps, its call and its settlement, since other callers run in between.
The polling loops are followed for the number of turns that the run allows.
-/

open Interleave Interleave.Program

namespace RabiRoute.DurableDelivery

variable {R : Type}

/-! ## Outcomes -/

inductive PendingState where
  | inProgress
  | uncertain
  | conflict

/-- The `settlement` of a reconciliation. -/
inductive Settlement where
  | committed
  | notAttempted

inductive Outcome (R : Type) where
  | completed (deliveryId : DeliveryId) (duplicate : Bool) (result : R)
      (settlement : Option Settlement)
  | pending (state : PendingState) (deliveryId : DeliveryId) (duplicate : Bool) (reason : String)

section Calls

variable [DecidableEq R] (calls : Calls R) (t : CallId)

/-- `error || text` -/
def errorOr (error : Option String) (text : String) : String :=
  (error.filter fun e ↦ decide (e ≠ "")).getD text

def pendingOutcome (state : PendingState) (reason : String) (duplicate : Bool) : Outcome R :=
  .pending state calls.deliveryId duplicate reason

/-! ## Reading the receipt -/

/-- The lease of a `sending` receipt that is renewed by the time of its file. -/
def Receipt.mtimeLease (r : Receipt R) : Option Nat :=
  if r.state = .sending ∧ r.renewsByMtime then r.leaseDurationMs.filter (0 < ·) else none

def Receipt.atMtime (r : Receipt R) (mtimeMs : Nat) : Receipt R :=
  match r.mtimeLease with
  | some leaseDurationMs => { r with leaseExpiresAt := some (mtimeMs + leaseDurationMs) }
  | none => r

def readDurableDeliveryReceipt : Prog R (Option (Receipt R)) :=
  (do
    let raw ← sys .readFile
    match calls.parse raw with
    | none => pure none
    | some receipt =>
      if receipt.mtimeLease.isSome then
        let stat ← sys .stat
        pure (some (receipt.atMtime stat.mtimeMs))
      else pure (some receipt)).attempt fun _ ↦ pure none

def readDurableDeliveryReceiptSnapshot : Prog R (Option (Snapshot R)) :=
  (do
    let before ← sys .stat
    let raw ← sys .readFile
    let after ← sys .stat
    match calls.parse raw with
    | none => pure none
    | some receipt =>
      if before ≠ after then pure none
      else
        let again ← sys .readFile
        if again ≠ raw then pure none
        else pure (some (Snapshot.mk (receipt.atMtime before.mtimeMs) raw after))).attempt
          fun _ ↦ pure none

/-! ## Who executes the delivery -/

def sameHostOwnerAlive (receipt : Receipt R) : Prog R Bool :=
  match receipt.ownerHost, receipt.ownerPid with
  | some host, some pid =>
    if host = [] ∨ HostName.lower host ≠ HostName.lower (calls.host t) ∨ pid = 0 then pure false
    else sys (.kill pid)
  | _, _ => pure false

def sameHostOwnerGone (receipt : Receipt R) : Prog R Bool :=
  match receipt.ownerHost, receipt.ownerPid with
  | some host, some pid =>
    if host = [] ∨ HostName.lower host ≠ HostName.lower (calls.host t) ∨ pid = 0 then pure false
    else do
      let alive ← sameHostOwnerAlive calls t receipt
      pure (!alive)
  | _, _ => pure false

def receiptExecutionActive (receipt : Receipt R) : Prog R Bool :=
  if receipt.state ≠ .sending ∨ receipt.executionId.isNone then pure false
  else do
    let alive ← sameHostOwnerAlive calls t receipt
    if alive then pure true
    else do
      let gone ← sameHostOwnerGone calls t receipt
      if gone then pure false
      else
        match receipt.leaseExpiresAt with
        | none => pure false
        | some leaseExpiresAt => do
            let now ← sys .dateNow
            pure (decide (now < leaseExpiresAt))

/-! ## Writing the receipt -/

def writeReceipt (receipt : Receipt R) : Prog R (Receipt R) := do
  sys (.replace receipt)
  pure receipt

def withReceiptMutationLock {α : Type} (action : Prog R α) : Prog R α := do
  sys .lock
  action.ensure (sys .unlock)

/-- The receipt of a new reservation. -/
def newReceipt (now later : Nat) : Receipt R where
  version := receiptVersion
  deliveryId := calls.deliveryId
  requestDigest := calls.digest t
  state := .sending
  createdAt := now
  updatedAt := now
  result := none
  error := none
  executionId := some t
  ownerHost := some (calls.host t)
  ownerPid := some (calls.pid t)
  leaseExpiresAt := some (later + calls.leaseMs t)
  leaseDurationMs := some (calls.leaseMs t)
  renewsByMtime := true

structure Reservation (R : Type) where
  created : Bool
  receipt : Option (Receipt R)

def reserveReceipt : Prog R (Reservation R) := do
  sys .requestAuthority
  let now ← sys .dateNow
  let later ← sys .dateNow
  let receipt := newReceipt calls t now later
  (do
    sys .requestAuthority
    let descriptor ← sys .openExclusive
    (do
      sys (.writeNew descriptor receipt)
      pure (Reservation.mk true (some receipt))).ensure (sys (.close descriptor))).attempt fun error ↦
        if error ≠ DeliveryError.eexist then raise error
        else do
          let existing ← readDurableDeliveryReceipt calls
          pure ⟨false, existing⟩

/-- `executionId`, the owner and the lease become `undefined`. -/
def Receipt.disowned (r : Receipt R) (now : Nat) : Receipt R :=
  { r with
    updatedAt := now
    executionId := none
    ownerHost := none
    ownerPid := none
    leaseExpiresAt := none
    leaseDurationMs := none
    renewsByMtime := false }

/-- The receipt that a call with this execution claims. -/
def Receipt.claimedBy (r : Receipt R) (now later : Nat) : Receipt R :=
  { r with
    state := .sending
    updatedAt := now
    error := none
    executionId := some t
    ownerHost := some (calls.host t)
    ownerPid := some (calls.pid t)
    leaseExpiresAt := some (later + calls.leaseMs t)
    leaseDurationMs := some (calls.leaseMs t)
    renewsByMtime := true }

structure Claim (R : Type) where
  claimed : Bool
  receipt : Option (Receipt R)

def claimReceipt (allowUncertain : Bool) : Prog R (Claim R) := do
  sys .requestAuthority
  withReceiptMutationLock do
    let current ← readDurableDeliveryReceipt calls
    sys .requestAuthority
    match current with
    | none => pure ⟨false, none⟩
    | some current =>
      if current.requestDigest ≠ calls.digest t then pure ⟨false, some current⟩
      else if current.state = .completed then pure ⟨false, some current⟩
      else if current.state = .uncertain ∧ !allowUncertain then pure ⟨false, some current⟩
      else
        let active ← receiptExecutionActive calls t current
        if active then pure ⟨false, some current⟩
        else
          let now ← sys .dateNow
          let later ← sys .dateNow
          let claimed ← writeReceipt (current.claimedBy calls t now later)
          pure ⟨true, some claimed⟩

/-- Only the execution that the receipt names mutates it; `none` removes it. -/
def mutateOwnedReceipt (mutate : Receipt R → Prog R (Option (Receipt R))) :
    Prog R (Option (Receipt R)) := do
  sys .requestAuthority
  withReceiptMutationLock do
    let current ← readDurableDeliveryReceipt calls
    sys .requestAuthority
    match current with
    | none => pure none
    | some current =>
      if current.requestDigest ≠ calls.digest t ∨ current.executionId ≠ some t ∨
          current.state ≠ .sending then pure none
      else
        let next ← mutate current
        sys .requestAuthority
        match next with
        | none =>
          sys .unlink
          pure (some current)
        | some next =>
          let written ← writeReceipt next
          pure (some written)

def settleOwnedResult (result : R) (duplicate : Bool) : Prog R (Outcome R) := do
  let retryable ← (if calls.hasRetryableRejection t then sys (.retryableRejection result)
    else pure false : Prog R Bool)
  let settled ← mutateOwnedReceipt calls t fun current ↦
    if retryable then pure none
    else do
      let now ← sys .dateNow
      pure (some { current.disowned now with state := .completed, result := some result, error := none })
  if settled.isNone then
    pure (pendingOutcome calls .uncertain
      (if retryable then "The non-committing rejection receipt could not be released safely."
        else "The delivery execution lost ownership before its completed receipt was committed.")
      duplicate)
  else
    sys .requestAuthority
    pure (.completed calls.deliveryId duplicate result none)

def markOwnedUncertain (reason : String) : Prog R Bool := do
  let marked ← mutateOwnedReceipt calls t fun current ↦ do
    let now ← sys .dateNow
    pure (some { current.disowned now with state := .uncertain, error := some reason })
  pure marked.isSome

def releaseOwnedSending : Prog R Bool := do
  let released ← mutateOwnedReceipt calls t fun current ↦ do
    let now ← sys .dateNow
    pure (some (current.disowned now))
  pure released.isSome

/-! ## The heartbeat -/

def startReceiptHeartbeat : Prog R Unit := do
  sys .startWorker
  let status ← sys (.awaitStatus .starting)
  if status ≠ HeartbeatStatus.active then
    sys .requestStop
    sys .terminate
    sys .releaseWorkerLock
    let failure ← sys .loadFailure
    raise (.leaseLost failure
      (if status = HeartbeatStatus.starting then .startup else .initialRenewal))
  else pure ()

def stopHeartbeat : Prog R Unit := do
  sys .requestStop
  let _ ← sys (.awaitStatus .active)
  sys .terminate
  sys .releaseWorkerLock

/-- The worker's `ownedRecord`; `ownerHost` and `ownerPid` are those of the call. -/
def ownedRecord (raw : Content R) : Option (Receipt R) :=
  (calls.parse raw).filter fun record ↦
    decide (record.requestDigest = calls.digest t ∧ record.state = .sending ∧
      record.executionId = some t ∧
      record.ownerHost.map HostName.lower = some (HostName.lower (calls.host t)) ∧
      record.ownerPid = some (calls.pid t) ∧ record.renewsByMtime = true ∧
      record.leaseDurationMs = some (calls.leaseMs t))

/-- What the `finally` of `renew()` reads. -/
structure Renewal where
  locked : Bool
  descriptor : Option Nat

def during {L α : Type} (locals : L) (p : Prog R α) :
    Program (Cmd R) Cmd.Response (L × DeliveryError) α :=
  p.handle ret fun error ↦ raise (locals, error)

/-- `renew()` with the mutation lock, up to its `catch`; it answers `renewedThrough`. -/
def renewLocked : Program (Cmd R) Cmd.Response (Renewal × DeliveryError) (Renewal × Nat) := do
  let descriptor ← during ⟨true, none⟩ (sys .openReceipt)
  let held : Renewal := ⟨true, some descriptor⟩
  let before ← during held (sys (.fstat descriptor))
  let raw ← during held (sys (.readDescriptor descriptor))
  let after ← during held (sys (.fstat descriptor))
  if before.mtimeMs ≠ after.mtimeMs ∨ before.size ≠ after.size ∨ before.ino ≠ after.ino then
    raise (held, .heartbeat .invalid)
  else if (ownedRecord calls t raw).isNone then raise (held, .heartbeat .fenced)
  else
    let now ← during held (sys .dateNow)
    if after.mtimeMs + calls.leaseMs t ≤ now then raise (held, .heartbeat .expired)
    else
      let currentBefore ← during held (sys .stat)
      if after.ino ≠ currentBefore.ino then raise (held, .heartbeat .ownerChanged)
      else
        let currentRaw ← during held (sys .readFile)
        if (ownedRecord calls t currentRaw).isNone then raise (held, .heartbeat .ownerChanged)
        else
          let now' ← during held (sys .dateNow)
          during held (sys (.futimes descriptor (max now' (after.mtimeMs + 1))))
          let renewed ← during held (sys (.fstat descriptor))
          if renewed.mtimeMs ≤ after.mtimeMs then raise (held, .heartbeat .invalid)
          else
            let now'' ← during held (sys .dateNow)
            if renewed.mtimeMs + calls.leaseMs t ≤ now'' then raise (held, .heartbeat .expired)
            else
              let currentAfter ← during held (sys .stat)
              if renewed.ino ≠ currentAfter.ino then raise (held, .heartbeat .ownerChanged)
              else
                let finalRaw ← during held (sys .readFile)
                if (ownedRecord calls t finalRaw).isNone then
                  raise (held, .heartbeat .ownerChanged)
                else
                  during held (sys .addCount)
                  pure (held, renewed.mtimeMs + calls.leaseMs t)

/-- The failure code that the worker's `catch` assigns. -/
def renewalFailure : DeliveryError → HeartbeatFailure
  | .heartbeat failure => failure
  | .enoent => .missing
  | _ => .io

/-- The `finally` of `renew()`: a failing close or release counts when nothing else failed. -/
def finishRenewal (renewal : Renewal) (failure : Option HeartbeatFailure) :
    Prog R (Option HeartbeatFailure) := do
  let closed ← (match renewal.descriptor with
    | none => pure failure
    | some fd => (do
        sys (.close fd)
        pure failure).attempt fun _ ↦ pure (some (failure.getD .io)) : Prog R _)
  if renewal.locked then
    (do
      sys .unlock
      pure closed).attempt fun _ ↦ pure (some (closed.getD .io))
  else pure closed

/-- `fail(code)` -/
def failHeartbeat (failure : HeartbeatFailure) : Prog R Unit := do
  let status ← sys .loadStatus
  if status = HeartbeatStatus.failed then pure ()
  else
    sys (.storeFailure failure)
    sys (.publish .failed)

inductive Renewed where
  | busy
  | failed
  | renewed
deriving DecidableEq

/-- The `acquireMutationLock()` of `renew()`, with the failure that its `catch` assigns. -/
def takeRenewalLock (renewedThrough : Nat) : Prog R (Except HeartbeatFailure Bool) :=
  (do
    let locked ← sys .tryLock
    if locked ∨ renewedThrough = 0 then pure (Except.ok locked)
    else
      let now ← sys .dateNow
      if renewedThrough ≤ now then raise (DeliveryError.heartbeat .expired)
      else pure (Except.ok false)).attempt fun error ↦ pure (Except.error (renewalFailure error))

/-- `renew()` and the `renewedThrough` that it leaves. -/
def renew (renewedThrough : Nat) : Prog R (Renewed × Nat) := do
  let locked ← takeRenewalLock renewedThrough
  match locked with
  | .error failure =>
    failHeartbeat failure
    pure (.failed, renewedThrough)
  | .ok false => pure (.busy, renewedThrough)
  | .ok true =>
    let (failure, through) ← (renewLocked calls t).handle
      (fun (renewal, through) ↦ do
        let failure ← finishRenewal renewal none
        pure (failure, through))
      (fun (renewal, error) ↦ do
        let failure ← finishRenewal renewal (some (renewalFailure error))
        pure (failure, renewedThrough))
    match failure with
    | none => pure (.renewed, through)
    | some failure =>
      failHeartbeat failure
      pure (.failed, through)

/-- The `do … while` of the worker's start: a busy lock postpones its first renewal. -/
def startupRenewal : Nat → Prog R (Renewed × Nat)
  | 0 => raise .stillWaiting
  | turns + 1 => do
      let (answer, through) ← renew calls t 0
      if answer = .busy then
        sys .wait
        let stop ← sys .loadStop
        if stop then pure (answer, through) else startupRenewal turns
      else pure (answer, through)

def heartbeatLoop (renewedThrough : Nat) : Nat → Prog R Unit
  | 0 => raise .stillWaiting
  | turns + 1 => do
      let stop ← sys .loadStop
      if stop then pure ()
      else
        sys .wait
        let stop ← sys .loadStop
        if stop then pure ()
        else
          let (answer, through) ← renew calls t renewedThrough
          if answer = .failed then pure () else heartbeatLoop through turns

/-- The worker of `RECEIPT_HEARTBEAT_WORKER_SOURCE`. -/
def heartbeatWorker : Prog R Unit := do
  sys .awaitStart
  let (answer, through) ← startupRenewal calls t (calls.renewals t)
  match answer with
  | .renewed =>
    sys (.publish .active)
    heartbeatLoop calls t through (calls.renewals t)
    let status ← sys .loadStatus
    if status = HeartbeatStatus.active then sys (.publish .stopped) else pure ()
  | .busy => sys (.publish .stopped)
  | .failed => pure ()

/-! ## Executing a delivery -/

def uncertain (reason : String) (duplicate : Bool) : Prog R (Outcome R) := do
  let retained ← markOwnedUncertain calls t reason
  pure (pendingOutcome calls .uncertain
    (if retained then reason
      else "The delivery execution lost ownership before its uncertain receipt was committed.")
    duplicate)

def inProgress (reason : String) (duplicate : Bool) : Prog R (Outcome R) := do
  let _ ← releaseOwnedSending calls t
  pure (pendingOutcome calls .inProgress reason duplicate)

/-- `await options.deliver()` between its two authority checks, and the settlement of its result. -/
def deliverAndSettle (duplicate : Bool) : Prog R (Outcome R) := do
  sys .requestAuthority
  sys .deliver
  let result ← sys .awaitDelivery
  sys .requestAuthority
  settleOwnedResult calls t result duplicate

def deliverOnce (duplicate : Bool) : Prog R (Outcome R) :=
  (deliverAndSettle calls t duplicate).attempt fun error ↦ do
    sys .requestAuthority
    uncertain calls t
      (error.message ++ " The one authorized recovery retry did not produce a terminal receipt;" ++
        " do not resend automatically.") duplicate

/-- The call of `options.recover`; its failure is already an outcome. -/
def askRecovery (error : String) (failed : String) (duplicate : Bool) :
    Prog R (Recovery R ⊕ Outcome R) :=
  (do
    sys .requestAuthority
    sys (.recover error)
    let recovery ← sys .awaitRecovery
    sys .requestAuthority
    pure (Sum.inl recovery)).attempt fun error ↦ do
      sys .requestAuthority
      let outcome ← uncertain calls t (error.message ++ failed) duplicate
      pure (Sum.inr outcome)

def actOnRecovery (duplicate : Bool) : Recovery R → Prog R (Outcome R)
  | .completed result => settleOwnedResult calls t result duplicate
  | .retry => deliverOnce calls t false
  | .inProgress reason => inProgress calls t reason duplicate
  | .uncertain reason => uncertain calls t reason duplicate

def recoverFirst (recoveryError : String) : Prog R (Outcome R) :=
  if !calls.hasRecover t then
    inProgress calls t
      "The delivery is already reserved or sending; query its receipt before retrying." true
  else do
    let answer ← askRecovery calls t recoveryError
      " Recovery could not determine the earlier delivery result." true
    match answer with
    | .inr outcome => pure outcome
    | .inl recovery => actOnRecovery calls t true recovery

def deliverFirst : Prog R (Outcome R) :=
  (deliverAndSettle calls t false).attempt fun error ↦ do
    sys .requestAuthority
    if !calls.hasRecover t then
      uncertain calls t
        (error.message ++ " The send result is uncertain; do not resend automatically.") false
    else
      let answer ← askRecovery calls t error.message
        " Recovery could not determine the delivery result." false
      match answer with
      | .inr outcome => pure outcome
      | .inl recovery => actOnRecovery calls t false recovery

/-- The start of the heartbeat; its failure is already an outcome. -/
def beginExecution (receipt : Receipt R) (duplicate : Bool) : Prog R (Option (Outcome R)) :=
  (do
    if receipt.ownerHost.getD [] = [] ∨ receipt.ownerPid.getD 0 = 0 then
      raise DeliveryError.noExecutionOwner
    else pure ()
    startReceiptHeartbeat
    pure none).attempt fun error ↦ do
      sys .requestAuthority
      let retained ← markOwnedUncertain calls t error.message
      pure (some (pendingOutcome calls .uncertain
        (if retained then error.message
          else "The delivery execution lost ownership before its heartbeat started.") duplicate))

/-- `recovery` is the `recoveryError` of an execution that recovers first. -/
def executeClaimedDelivery (receipt : Receipt R) (recovery : Option String) :
    Prog R (Outcome R) := do
  sys .requestAuthority
  let failed ← beginExecution calls t receipt recovery.isSome
  match failed with
  | some outcome => pure outcome
  | none =>
    ((match recovery with
      | some recoveryError => recoverFirst calls t recoveryError
      | none => deliverFirst calls t).attempt fun error ↦ do
        sys .requestAuthority
        uncertain calls t
          (error.message ++ " The delivery owner failed before committing a terminal receipt.")
          recovery.isSome).ensure stopHeartbeat

/-! ## The calls -/

def waitForTerminal (deadline : Nat) : Nat → Prog R (Option (Receipt R))
  | 0 => raise .stillWaiting
  | turns + 1 => do
      let now ← sys .dateNow
      if deadline ≤ now then
        sys .requestAuthority
        let receipt ← readDurableDeliveryReceipt calls
        sys .requestAuthority
        pure receipt
      else
        sys .requestAuthority
        let receipt ← readDurableDeliveryReceipt calls
        sys .requestAuthority
        if receipt.all fun receipt ↦ decide (receipt.state = .completed ∨ receipt.state = .uncertain)
        then pure receipt
        else
          sys .wait
          waitForTerminal deadline turns

/-- The outcome of a receipt that is of another payload or completed. -/
def settledOutcome (receipt : Receipt R) : Option (Outcome R) :=
  if receipt.requestDigest ≠ calls.digest t then
    some (pendingOutcome calls .conflict
      "The deliveryId is already reserved for a different payload." true)
  else if receipt.state = .completed then
    receipt.result.map fun result ↦ .completed calls.deliveryId true result none
  else none

/-- The rest of `executeDurableDelivery` when there is a receipt that is not completed. -/
def claimAndExecute (existing : Receipt R) : Prog R (Outcome R) := do
  if existing.state = .uncertain ∧ (!calls.recoverExistingUncertain t ∨ !calls.hasRecover t) then
    pure (pendingOutcome calls .uncertain (errorOr existing.error
        "The earlier delivery result is uncertain; do not resend automatically.") true)
  else if existing.state ≠ .uncertain ∧ !calls.hasRecover t then
    pure (pendingOutcome calls .inProgress
      "The delivery is already reserved or sending; query its receipt before retrying." true)
  else
    let claim ← claimReceipt calls t
      (decide (existing.state = .uncertain) && calls.recoverExistingUncertain t)
    sys .requestAuthority
    match claim.receipt with
    | none => pure (pendingOutcome calls .uncertain
        "The delivery receipt became unreadable while acquiring execution ownership." true)
    | some current =>
      if claim.claimed then
        executeClaimedDelivery calls t current (some (errorOr existing.error
      "The earlier delivery receipt requires authoritative recovery."))
      else
        match settledOutcome calls t current with
        | some outcome => pure outcome
        | none =>
          if current.state = .uncertain then
            pure (pendingOutcome calls .uncertain (errorOr current.error
              "The earlier delivery result is uncertain; do not resend automatically.") true)
          else
            pure (pendingOutcome calls .inProgress
              "Another execution still owns this delivery; do not resend automatically." true)

/-- The rest of `executeDurableDelivery` when the receipt exists already. -/
def joinDelivery (existing : Receipt R) : Prog R (Outcome R) :=
  match settledOutcome calls t existing with
  | some outcome => pure outcome
  | none =>
    if existing.state ≠ .uncertain then do
      let start ← sys .dateNow
      let terminal ← waitForTerminal calls (start + calls.waitForCompletionMs t) (calls.turns t)
      let existing := terminal.getD existing
      sys .requestAuthority
      match settledOutcome calls t existing with
      | some outcome => pure outcome
      | none => claimAndExecute calls t existing
    else claimAndExecute calls t existing

def executeDurableDelivery : Prog R (Outcome R) := do
  sys .requestAuthority
  let reservation ← reserveReceipt calls t
  sys .requestAuthority
  match reservation.created, reservation.receipt with
  | true, some receipt => executeClaimedDelivery calls t receipt none
  | _, none => pure (pendingOutcome calls .uncertain
      "The delivery receipt is unreadable; do not resend automatically." true)
  | false, some existing => joinDelivery calls t existing

/-- What `reconcileDurableDelivery` answers from the receipt alone. -/
def reconciledOutcome (activeReason conflictReason : String) (receipt : Receipt R) :
    Prog R (Option (Outcome R)) :=
  if receipt.requestDigest ≠ calls.digest t then
    pure (some (pendingOutcome calls .conflict conflictReason true))
  else if receipt.state = .completed then
    pure (some (match receipt.result with
      | none => pendingOutcome calls .uncertain "The completed receipt has no result." true
      | some result => .completed calls.deliveryId true result (some .notAttempted)))
  else do
    let active ← receiptExecutionActive calls t receipt
    pure (if active then some (pendingOutcome calls .inProgress activeReason true) else none)

def unverifiedOutcome : Outcome R :=
  pendingOutcome calls .uncertain
    "The reconciled receipt could not be verified after persistence; do not resend." true

/-- The answer of a reconciliation that has written the receipt `committed`. -/
def readbackOutcome (committed : Receipt R) (readback : Option (Snapshot R)) : Outcome R :=
  match readback with
  | none => unverifiedOutcome calls
  | some readback =>
    match readback.receipt.result with
    | none => unverifiedOutcome calls
    | some result =>
      if readback.receipt ≠ committed then unverifiedOutcome calls
      else .completed calls.deliveryId true result (some .committed)

/-- The commit of a verified result under the mutation lock. -/
def commitVerified (snapshot : Snapshot R) (result : R) : Prog R (Outcome R) :=
  withReceiptMutationLock do
    sys .requestAuthority
    let latest ← readDurableDeliveryReceiptSnapshot calls
    sys .requestAuthority
    match latest with
    | none => pure (pendingOutcome calls .uncertain
        "The receipt disappeared or became unreadable during verification." true)
    | some latest => do
        let settled ← reconciledOutcome calls t
          "An active execution acquired this delivery during verification."
          "The receipt payload changed during verification." latest.receipt
        match settled with
        | some outcome => pure outcome
        | none =>
          if latest.raw ≠ snapshot.raw ∨ latest.stat ≠ snapshot.stat then
            pure (pendingOutcome calls .uncertain
              "The receipt snapshot changed during verification." true)
          else
            sys .requestAuthority
            let now ← sys .dateNow
            let committed ← writeReceipt { latest.receipt.disowned now with
              state := .completed, result := some result, error := none }
            sys .requestAuthority
            let readback ← readDurableDeliveryReceiptSnapshot calls
            sys .requestAuthority
            pure (readbackOutcome calls committed readback)

def reconcileDurableDelivery : Prog R (Outcome R) :=
  (do
    sys .requestAuthority
    let snapshot ← readDurableDeliveryReceiptSnapshot calls
    match snapshot with
    | none => pure (pendingOutcome calls .uncertain
        "The delivery receipt is missing, unreadable or unstable; do not resend." true)
    | some snapshot => do
        sys .requestAuthority
        let settled ← reconciledOutcome calls t "An active execution owns this delivery; do not resend."
          "The deliveryId belongs to a different payload." snapshot.receipt
        match settled with
        | some outcome => pure outcome
        | none =>
          sys (.verify snapshot.receipt)
          let verification ← sys .awaitVerification
          sys .requestAuthority
          match verification with
          | .completed (some result) => commitVerified calls t snapshot result
          | .uncertain (some reason) => pure (pendingOutcome calls .uncertain reason true)
          | _ => pure (pendingOutcome calls .uncertain
              "Verification did not prove a completed delivery." true)).attempt fun _ ↦
                pure (pendingOutcome calls .uncertain
                  "Receipt reconciliation failed; preserve the original deliveryId and do not resend."
                  true)

/-- A worker answers nothing. -/
def program : Thread → Prog R (Option (Outcome R))
  | .call t =>
    if t < calls.count then do
      let outcome ← (match calls.kind t with
        | .execute => executeDurableDelivery calls t
        | .reconcile => reconcileDurableDelivery calls t)
      pure (some outcome)
    else pure none
  | .heartbeat t =>
    if t < calls.count then do
      heartbeatWorker calls t
      pure none
    else pure none

/-- There is no receipt and no call has started. -/
def initial (now : Nat) :
    Config (DeliveryState R) (Cmd R) Cmd.Response Thread DeliveryError (Option (Outcome R)) where
  shared :=
    { now
      dead := fun _ _ ↦ false
      path := none
      file := fun _ ↦ ⟨.unwritten, 0, 0⟩
      nextInode := 0
      lock := none
      control := fun _ ↦ ⟨false, false, false, .starting, none, 0⟩
      initialising := fun _ ↦ none
      executing := fun _ ↦ false
      observed := fun _ ↦ false
      rejection := fun _ ↦ none
      creates := fun _ ↦ 0
      delivers := fun _ ↦ 0
      retries := fun _ ↦ 0
      rejections := fun _ ↦ 0
      removals := fun _ ↦ 0
      trespass := false }
  prog := program calls

end Calls

end RabiRoute.DurableDelivery
