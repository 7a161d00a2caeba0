import RabiRoute.AgentSend.Sends
import RabiRoute.Interleave.EventLoop

/-!
# `executeIdempotentAgentSend`

The calls as programs of one thread.  A turn ends where a call awaits its heartbeat, a promise, a recovery or the
next poll; its process may die between any two commands, and the next one finds the receipts alone.  File
operations succeed.
-/

open Collections Interleave

namespace RabiRoute.AgentSend

/-! ## Commands -/

inductive Recovery where
  | completed (result : AgentSendResult)
  | retry
  | inProgress (reason : JsString)
  | uncertain (reason : JsString)

/-- The last six are awaited. -/
inductive Command where
  | requestAuthority
  | isHydrated
  | countReceiptFiles
  | publishReplies
  | readReply (key : ReplyKey)
  | rememberReply (key : ReplyKey) (deliveryId content : JsString) (result : AgentSendResult)
  | openReceipt (deliveryId : JsString)
  | fillReceipt (deliveryId requestDigest : JsString)
  | readReceipt (deliveryId : JsString)
  | writeReceipt (deliveryId requestDigest : JsString) (state : ReceiptState)
  | executionActive (owner : Option Nat)
  | now
  | readContent (key : ContentKey)
  | openPromise (key : Option ContentKey)
  | refusePromise (promise : Nat) (error : JsString)
  | deliver (promise : Nat)
  | forgetContent (key : ContentKey) (promise : Nat)
  | setContentDuplicate (duplicate : Bool)
  | contentDuplicate
  | arrive
  | startHeartbeat
  | stopHeartbeat
  | settlement (promise : Nat)
  | recover
  | poll

abbrev Command.Answer : Command → Type
  | .requestAuthority => Except JsString Unit
  | .isHydrated => Bool
  | .countReceiptFiles => Nat
  | .readReply _ => Option RecentSuccessfulReply
  | .openReceipt _ => Bool
  | .readReceipt _ => Option Receipt
  | .executionActive _ => Bool
  | .now => Nat
  | .readContent _ => Option Nat
  | .openPromise _ => Nat
  | .contentDuplicate => Bool
  | .startHeartbeat => Except JsString Unit
  | .settlement _ => Except JsString AgentSendResult
  | .recover => Except JsString Recovery
  | _ => Unit

def Command.awaits : Command → Bool
  | .arrive | .startHeartbeat | .stopHeartbeat | .settlement _ | .recover | .poll => true
  | _ => false

abbrev Prog := Program Command Command.Answer JsString

def sys (c : Command) : Prog c.Answer := Program.perform c

def orThrow {α : Type} : Except JsString α → Prog α
  | .ok a => .ret a
  | .error e => .raise e

def requestAuthority : Prog Unit := do orThrow (← sys .requestAuthority)

/-! ## Recent replies -/

/-- The check before each file. -/
def checkFiles : Nat → Prog Unit
  | 0 => return ()
  | files + 1 => do
      requestAuthority
      checkFiles files

def hydrateReplies : Prog Unit := do
  requestAuthority
  if ← sys .isHydrated then return ()
  else
    checkFiles (← sys .countReceiptFiles)
    requestAuthority
    sys .publishReplies

def readRecentSuccessfulReply (key : Option ReplyKey) : Prog (Option RecentSuccessfulReply) := do
  requestAuthority
  match key with
  | none => return none
  | some key =>
    hydrateReplies
    requestAuthority
    sys (.readReply key)

def rememberSuccessfulReply (key : Option ReplyKey) (deliveryId content : JsString) (result : AgentSendResult) :
    Prog Unit := do
  requestAuthority
  match key with
  | none => return ()
  | some key => if result.status = .sent then sys (.rememberReply key deliveryId content result) else return ()

/-! ## The delivery -/

/-- The promise that a call makes, and what it settles with. -/
def awaitDelivery (promise : Nat) : Prog AgentSendResult := do orThrow (← sys (.settlement promise))

/-- `deliver` in the promise of the content. -/
def deliverInPromise (promise : Nat) : Prog Unit := do
  match ← sys .requestAuthority with
  | .ok () => sys (.deliver promise)
  | .error e => sys (.refusePromise promise e)

def deliverContent (key : ContentKey) (promise : Nat) : Prog (Bool × AgentSendResult) :=
  Program.attempt
    (do
      let result ← awaitDelivery promise
      requestAuthority
      if result.status = .sent then return (false, result)
      else
        sys (.forgetContent key promise)
        return (false, result))
    fun error ↦ do
      -- A refusal leaves the entry, which may be another call's by now.
      requestAuthority
      sys (.forgetContent key promise)
      .raise error

def coalesceMessageProcessingContent (key : Option ContentKey) : Prog (Bool × AgentSendResult) := do
  requestAuthority
  match key with
  | none =>
    let promise ← sys (.openPromise none)
    sys (.deliver promise)
    let result ← awaitDelivery promise
    requestAuthority
    return (false, result)
  | some key =>
    match ← sys (.readContent key) with
    | some promise =>
      let result ← awaitDelivery promise
      requestAuthority
      return (true, result)
    | none =>
      let promise ← sys (.openPromise (some key))
      deliverInPromise promise
      deliverContent key promise

/-! ## Receipts -/

/-- What a call of `executeDurableDelivery` has to do with. -/
structure Execution where
  deliveryId : JsString
  requestDigest : JsString
  /-- By its call. -/
  executionId : Nat
  recovers : Bool
  waitForCompletionMs : Nat
  deliver : Prog AgentSendResult

namespace Execution

variable (x : Execution)

/-- `none` when the receipt was created. -/
def reserveReceipt : Prog (Option (Option Receipt)) := do
  requestAuthority
  requestAuthority
  if ← sys (.openReceipt x.deliveryId) then
    sys (.fillReceipt x.deliveryId x.requestDigest)
    return none
  else return some (← sys (.readReceipt x.deliveryId))

def owns (current : Receipt) : Bool :=
  decide (current.requestDigest = x.requestDigest ∧ current.state = .sending (some x.executionId))

def mutateOwnedReceipt (state : ReceiptState) : Prog Bool := do
  requestAuthority
  let current ← sys (.readReceipt x.deliveryId)
  requestAuthority
  if current.any x.owns then
    requestAuthority
    sys (.writeReceipt x.deliveryId x.requestDigest state)
    return true
  else return false

def settleOwnedResult (result : AgentSendResult) (duplicate : Bool) : Prog DurableDeliveryOutcome := do
  if ← x.mutateOwnedReceipt (.completed result) then
    requestAuthority
    return .completed duplicate result
  else
    return .pending .uncertain duplicate
      (js "The delivery execution lost ownership before its completed receipt was committed.")

def markOwnedUncertain (reason lost : JsString) (duplicate : Bool) : Prog DurableDeliveryOutcome := do
  let retained ← x.mutateOwnedReceipt (.uncertain reason)
  return .pending .uncertain duplicate (if retained then reason else lost)

def uncertain (reason : JsString) (duplicate : Bool) : Prog DurableDeliveryOutcome :=
  x.markOwnedUncertain reason
    (js "The delivery execution lost ownership before its uncertain receipt was committed.") duplicate

def inProgress (reason : JsString) (duplicate : Bool) : Prog DurableDeliveryOutcome := do
  let _ ← x.mutateOwnedReceipt (.sending none)
  return .pending .inProgress duplicate reason

/-! ## The execution -/

def settleDelivery (duplicate : Bool) : Prog DurableDeliveryOutcome := do
  requestAuthority
  let result ← x.deliver
  requestAuthority
  x.settleOwnedResult result duplicate

def deliverOnce (duplicate : Bool) : Prog DurableDeliveryOutcome :=
  (x.settleDelivery duplicate).attempt fun error ↦ do
    requestAuthority
    x.uncertain
      (error ++
        js " The one authorized recovery retry did not produce a terminal receipt; do not resend automatically.")
      duplicate

def askRecovery : Prog Recovery := do
  requestAuthority
  let recovery ← orThrow (← sys .recover)
  requestAuthority
  return recovery

def settleRecovery (duplicate : Bool) : Recovery → Prog DurableDeliveryOutcome
  | .completed result => x.settleOwnedResult result duplicate
  | .retry => x.deliverOnce false
  | .inProgress reason => x.inProgress reason duplicate
  | .uncertain reason => x.uncertain reason duplicate

def recoverDelivery (failure : JsString) (duplicate : Bool) : Prog DurableDeliveryOutcome :=
  askRecovery.handle (x.settleRecovery duplicate) fun error ↦ do
    requestAuthority
    x.uncertain (error ++ failure) duplicate

def execute (recoverFirst : Bool) : Prog DurableDeliveryOutcome :=
  if recoverFirst then
    if x.recovers then
      x.recoverDelivery (js " Recovery could not determine the earlier delivery result.") true
    else x.inProgress (js "The delivery is already reserved or sending; query its receipt before retrying.") true
  else
    (x.settleDelivery false).attempt fun error ↦ do
      requestAuthority
      if x.recovers then x.recoverDelivery (js " Recovery could not determine the delivery result.") false
      else x.uncertain (error ++ js " The send result is uncertain; do not resend automatically.") false

def executeClaimedDelivery (recoverFirst : Bool) : Prog DurableDeliveryOutcome := do
  requestAuthority
  match ← sys .startHeartbeat with
  | .error reason =>
    requestAuthority
    x.markOwnedUncertain reason (js "The delivery execution lost ownership before its heartbeat started.")
      recoverFirst
  | .ok () =>
    Program.ensure
      ((x.execute recoverFirst).attempt fun error ↦ do
        requestAuthority
        x.uncertain (error ++ js " The delivery owner failed before committing a terminal receipt.") recoverFirst)
      (sys .stopHeartbeat)

/-! ## A receipt that is there -/

/-- The receipt, once more. -/
def readAgain : Prog (Option Receipt) := do
  requestAuthority
  let receipt ← sys (.readReceipt x.deliveryId)
  requestAuthority
  return receipt

def Terminal (receipt : Option Receipt) : Bool :=
  match receipt with
  | some ⟨_, _, .sending _, _⟩ => false
  | _ => true

/-- At least one millisecond passes between two polls. -/
def waitForTerminal (deadline : Nat) : Nat → Prog (Option Receipt)
  | 0 => x.readAgain
  | polls + 1 => do
      if deadline ≤ (← sys .now) then x.readAgain
      else
        let receipt ← x.readAgain
        if Terminal receipt then return receipt
        else
          sys .poll
          waitForTerminal deadline polls

/-- The last of `executeDurableDelivery`: the receipt is `sending`, and `options.recover` is given. -/
def claimReceipt : Prog (Option (Option Receipt)) := do
  requestAuthority
  let current ← sys (.readReceipt x.deliveryId)
  requestAuthority
  match current with
  | some ⟨_, requestDigest, .sending owner, _⟩ =>
    if requestDigest ≠ x.requestDigest then return some current
    else if ← sys (.executionActive owner) then return some current
    else
      sys (.writeReceipt x.deliveryId x.requestDigest (.sending (some x.executionId)))
      return none
  | _ => return some current

def conflictOutcome : DurableDeliveryOutcome :=
  .pending .conflict true (js "The deliveryId is already reserved for a different payload.")

def uncertainOutcome (error : JsString) : DurableDeliveryOutcome :=
  .pending .uncertain true
    (if error.isEmpty then js "The earlier delivery result is uncertain; do not resend automatically." else error)

/-- What a receipt that another execution holds leads to; `sending` is what follows when it is in progress. -/
def receiptOutcome (receipt : Receipt) (sending : Prog DurableDeliveryOutcome) : Prog DurableDeliveryOutcome :=
  if receipt.requestDigest ≠ x.requestDigest then return conflictOutcome
  else
    match receipt.state with
    | .completed result => return .completed true result
    | .uncertain error => return uncertainOutcome error
    | .sending _ => sending

def takeOver : Prog DurableDeliveryOutcome := do
  let claim ← x.claimReceipt
  requestAuthority
  match claim with
  | none => x.executeClaimedDelivery true
  | some none =>
    return .pending .uncertain true
      (js "The delivery receipt became unreadable while acquiring execution ownership.")
  | some (some current) =>
    x.receiptOutcome current
      (return .pending .inProgress true
        (js "Another execution still owns this delivery; do not resend automatically."))

def awaitReceipt (existing : Receipt) : Prog DurableDeliveryOutcome := do
  let deadline := (← sys .now) + x.waitForCompletionMs
  let existing := (← x.waitForTerminal deadline (x.waitForCompletionMs + 1)).getD existing
  requestAuthority
  x.receiptOutcome existing
    (if x.recovers then x.takeOver
    else
      return .pending .inProgress true
        (js "The delivery is already reserved or sending; query its receipt before retrying."))

def answerReservation : Option (Option Receipt) → Prog DurableDeliveryOutcome
  | none => x.executeClaimedDelivery false
  | some none =>
    return .pending .uncertain true (js "The delivery receipt is unreadable; do not resend automatically.")
  | some (some existing) => x.receiptOutcome existing (x.awaitReceipt existing)

def executeDurableDelivery : Prog DurableDeliveryOutcome := do
  requestAuthority
  let reservation ← x.reserveReceipt
  requestAuthority
  x.answerReservation reservation

end Execution

/-! ## The send -/

def conflictReason (deliveryId : JsString) : JsString :=
  js "The quoted group message already received a recent reply via deliveryId " ++ deliveryId ++ js ". " ++
    js "Do not send another paraphrase. Set params.allowAdditionalReply=true only when this is intentionally new follow-up information."

/-- The answer from a recent reply. -/
def recentReplyResponse (deliveryId content : JsString) (prepared : NormalizedAgentSend)
    (recentReply : RecentSuccessfulReply) : IdempotentAgentSendResponse :=
  if recentReply.fingerprint = some content then
    completedResponse deliveryId (prepared.present deliveryId recentReply.result) true
  else nonTerminalResponse deliveryId .conflict (conflictReason recentReply.deliveryId) 409 true

def deliverSend (request : AgentSendRequest) (prepared : NormalizedAgentSend) (deliveryId : JsString) :
    Prog AgentSendResult := do
  let coalesced ← coalesceMessageProcessingContent (messageProcessingContentKey prepared request)
  sys (.setContentDuplicate coalesced.1)
  return prepared.present deliveryId coalesced.2

/-- The send as an execution of `executeDurableDelivery`. -/
def sendExecution (t : Nat) (request : AgentSendRequest) (prepared : NormalizedAgentSend) (deliveryId : JsString) :
    Execution where
  deliveryId
  requestDigest := request.requestDigest
  executionId := t
  recovers := request.recovers
  waitForCompletionMs := request.waitForCompletionMs
  deliver := deliverSend request prepared deliveryId

def answerOutcome (request : AgentSendRequest) (prepared : NormalizedAgentSend) (deliveryId : JsString) :
    DurableDeliveryOutcome → Prog IdempotentAgentSendResponse
  | .completed duplicate result => do
      rememberSuccessfulReply (recentReplyTargetKey prepared) deliveryId request.content result
      requestAuthority
      return completedResponse deliveryId result (duplicate || (← sys .contentDuplicate))
  | .pending state duplicate reason =>
    return nonTerminalResponse deliveryId state reason (if state = .uncertain && !duplicate then 503 else 409)
      duplicate

/-- The recent reply, unless the send may be an additional one. -/
def consultReplies (prepared : NormalizedAgentSend) : Prog (Option RecentSuccessfulReply) :=
  if prepared.allowAdditionalReply then pure none else readRecentSuccessfulReply (recentReplyTargetKey prepared)

def answerSend (t : Nat) (request : AgentSendRequest) (prepared : NormalizedAgentSend) (deliveryId : JsString) :
    Option RecentSuccessfulReply → Prog IdempotentAgentSendResponse
  | some recentReply => return recentReplyResponse deliveryId request.content prepared recentReply
  | none => do
      answerOutcome request prepared deliveryId
        (← (sendExecution t request prepared deliveryId).executeDurableDelivery)

def executeIdempotentAgentSend (t : Nat) (request : AgentSendRequest) : Prog IdempotentAgentSendResponse := do
  let prepared ← orThrow request.prepared
  let deliveryId ← orThrow (normalizeDurableDeliveryId request.deliveryId)
  answerSend t request prepared deliveryId (← consultReplies prepared)

/-- A call, from the arrival of its request. -/
def call (requests : Nat → AgentSendRequest) (t : Nat) : Prog IdempotentAgentSendResponse := do
  sys .arrive
  executeIdempotentAgentSend t (requests t)

/-! ## The process -/

/-- What the answer to an awaited command says, and the time that has passed. -/
structure Choice where
  elapsed : Nat := 0
  heartbeat : Except JsString Unit := .ok ()
  delivered : Except JsString AgentSendResult := .error []
  recovery : Except JsString Recovery := .ok .retry

def Sends.setPromise (s : Sends) (promise : Nat) (state : PromiseState) : Sends :=
  { s with promises := s.promises.modify promise fun p ↦ { p with state } }

def Sends.readReceipt (s : Sends) (deliveryId : JsString) : Option Receipt :=
  (s.receipts.get? deliveryId).join.filter fun receipt ↦ decide (receipt.deliveryId = deliveryId)

/-- The entry of a content, unless it has expired. -/
def Sends.liveContent (s : Sends) (key : ContentKey) : Option RecentContentSend :=
  (s.contents.get? key).filter fun existing ↦ decide (s.now < existing.expiresAt)

/-- `authority` says what the checks answer, one after another. -/
def Sends.exec (authority : Nat → Except JsString Unit) (t : Nat) : (c : Command) → Sends → c.Answer × Sends
  | .requestAuthority, s => (authority s.checks, { s with checks := s.checks + 1 })
  | .isHydrated, s => (s.hydrated, s)
  | .countReceiptFiles, s => (s.receipts.keys.length, s)
  | .publishReplies, s => ((), hydrateRecentSuccessfulReplies s)
  | .readReply key, s =>
    match liveReply s key with
    | some existing => (some existing, s)
    | none => (none, { s with replies := s.replies.erase key })
  | .rememberReply key deliveryId content result, s =>
    ((), { s with
      replies := s.replies.set key ⟨deliveryId, some content, result, s.now + recentReplyTargetDedupeMs⟩ })
  | .openReceipt deliveryId, s =>
    if s.receipts.has deliveryId then (false, s) else (true, { s with receipts := s.receipts.set deliveryId none })
  | .fillReceipt deliveryId requestDigest, s =>
    ((), { s with
      receipts := s.receipts.set deliveryId (some ⟨deliveryId, requestDigest, .sending (some t), s.now⟩) })
  | .readReceipt deliveryId, s => (s.readReceipt deliveryId, s)
  | .writeReceipt deliveryId requestDigest state, s =>
    ((), { s with receipts := s.receipts.set deliveryId (some ⟨deliveryId, requestDigest, state, s.now⟩) })
  | .executionActive owner, s => (owner.any s.alive, s)
  | .now, s => (s.now, s)
  | .readContent key, s =>
    match s.liveContent key with
    | some existing => (some existing.promise, s)
    | none => (none, { s with contents := s.contents.erase key })
  | .openPromise key, s =>
    (s.promises.length, { s with
      promises := s.promises ++ [⟨t, .opened⟩]
      contents :=
        match key with
        | none => s.contents
        | some key => s.contents.set key ⟨s.promises.length, s.now + messageProcessingContentDedupeMs⟩ })
  | .refusePromise promise error, s => ((), s.setPromise promise (.refused error))
  | .deliver promise, s => ((), s.setPromise promise (.running s.now))
  | .forgetContent key promise, s =>
    ((), if (s.contents.get? key).any fun existing ↦ existing.promise == promise then
      { s with contents := s.contents.erase key } else s)
  | .setContentDuplicate duplicate, s =>
    ((), { s with contentDuplicate := fun u ↦ if u = t then duplicate else s.contentDuplicate u })
  | .contentDuplicate, s => (s.contentDuplicate t, s)
  | .arrive, s | .stopHeartbeat, s | .poll, s => ((), s)
  | .startHeartbeat, s => (.ok (), s)
  | .settlement _, s => (.error [], s)
  | .recover, s => (.ok .retry, s)

/-- A promise that is running settles as the choice says. -/
def Sends.settle (s : Sends) (promise : Nat) (delivered : Except JsString AgentSendResult) :
    Option (Except JsString AgentSendResult × Sends) :=
  (s.promises[promise]?).bind fun p ↦
    match p.state with
    | .opened | .lost => none
    | .refused error => some (.error error, s)
    | .running startedAt => some (delivered, s.setPromise promise (.settled startedAt s.now delivered))
    | .settled _ _ outcome => some (outcome, s)

def Sends.later (s : Sends) (elapsed : Nat) : Sends := { s with now := s.now + elapsed }

def Sends.answer (t : Nat) : (c : Command) → Choice → Sends → Option (c.Answer × Sends)
  | .arrive, ch, s =>
    some ((), { s.later ch.elapsed with alive := fun u ↦ if u = t then true else s.alive u })
  | .startHeartbeat, ch, s => some (ch.heartbeat, s.later ch.elapsed)
  | .stopHeartbeat, ch, s => some ((), s.later ch.elapsed)
  | .settlement promise, ch, s => (s.later ch.elapsed).settle promise ch.delivered
  | .recover, ch, s => some (ch.recovery, s.later ch.elapsed)
  | .poll, ch, s => some ((), s.later (ch.elapsed + 1))
  | _, _, _ => none

def DeliveryPromise.abandon (p : DeliveryPromise) : DeliveryPromise :=
  match p.state with
  | .opened | .running _ => { p with state := .lost }
  | _ => p

def Sends.restart (s : Sends) : Sends :=
  { s with
    alive := fun _ ↦ false
    replies := .empty
    hydrated := false
    contents := .empty
    promises := s.promises.map DeliveryPromise.abandon
    contentDuplicate := fun _ ↦ false }

def sends (authority : Nat → Except JsString Unit) : Thread Sends Command Command.Answer Nat Choice where
  awaits := Command.awaits
  exec := Sends.exec authority
  answer := Sends.answer
  restart := Sends.restart

abbrev State := Process Sends Command Command.Answer Nat JsString IdempotentAgentSendResponse

def State.initial : State := ⟨Sends.initial, fun _ ↦ .idle⟩

def system (authority : Nat → Except JsString Unit) (requests : Nat → AgentSendRequest) :
    Transitions.System State (Round Nat Choice) Unit :=
  (sends authority).system (call requests)

end RabiRoute.AgentSend
