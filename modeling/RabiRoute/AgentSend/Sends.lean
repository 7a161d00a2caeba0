import RabiRoute.Collections.InsertionMap
import RabiRoute.Shared.JsString
import RabiRoute.Transitions.System

/-!
# Sends of agents

The requests and results of `executeIdempotentAgentSend`, the receipts of one root, and what the process that is
running remembers of the sends.  Keys are the values of which the code takes the SHA-256 digest.
-/

open Collections

namespace RabiRoute.AgentSend

/-! ## Requests and results -/

inductive SendStatus where
  | sent
  | draft
  | blocked
  | failed
deriving DecidableEq

structure AgentSendSender where
  agentType : JsString
  sessionId : JsString
deriving DecidableEq

/-- The fields of a target that the keys are made of. -/
structure SendTarget where
  target : Option JsString
  groupId : Option JsString
  replyToMessageId : Option JsString
deriving DecidableEq

structure AgentSendResult where
  ok : Bool
  status : SendStatus
  reason : Option JsString
  sentMessageId : Option JsString
  deliveryId : Option JsString
  sender : Option AgentSendSender
  channel : Option JsString
  routeId : Option JsString
  target : Option SendTarget
deriving DecidableEq

/-- What `prepareAgentSendRequest` reads. -/
structure NormalizedAgentSend where
  sender : AgentSendSender
  routeId : JsString
  channel : JsString
  allowAdditionalReply : Bool
  target : SendTarget

/-- A request, with what is read from it: its preparation, the digest of its payload, and the text of the payload
whose white space has been normalized. -/
structure AgentSendRequest where
  deliveryId : JsString
  prepared : Except JsString NormalizedAgentSend
  requestDigest : JsString
  content : JsString
  /-- `options.recover` is given. -/
  recovers : Bool
  /-- Or its default. -/
  waitForCompletionMs : Nat

def isIdUnit (u : UInt16) : Bool :=
  (48 ≤ u && u ≤ 57) || (65 ≤ u && u ≤ 90) || (97 ≤ u && u ≤ 122) || u == 46 || u == 95 || u == 58 || u == 45

def normalizeDurableDeliveryId (value : JsString) : Except JsString JsString :=
  let deliveryId := JsString.trim value
  if deliveryId.isEmpty then throw (js "Missing deliveryId.")
  else if 200 < deliveryId.length || !deliveryId.all isIdUnit then throw (js "Invalid deliveryId.")
  else pure deliveryId

/-! ## Keys -/

/-- The quoted group message: `recentReplyTargetKey`, before it is hashed. -/
structure ReplyKey where
  routeId : JsString
  groupId : JsString
  replyToMessageId : JsString
deriving DecidableEq

def keyText (value : Option JsString) : JsString := JsString.trim (value.getD [])

def recentReplyTargetKey (prepared : NormalizedAgentSend) : Option ReplyKey :=
  if prepared.channel ≠ js "napcat" || prepared.target.target ≠ some (js "group") then none
  else
    let groupId := keyText prepared.target.groupId
    let replyToMessageId := keyText prepared.target.replyToMessageId
    if groupId.isEmpty || replyToMessageId.isEmpty then none
    else some ⟨prepared.routeId, groupId, replyToMessageId⟩

def recentReplyTargetKeyFromResult (result : AgentSendResult) : Option ReplyKey :=
  if result.channel ≠ some (js "napcat") then none
  else
    match result.target with
    | none => none
    | some target =>
      if target.target ≠ some (js "group") then none
      else
        let groupId := keyText target.groupId
        let replyToMessageId := keyText target.replyToMessageId
        let routeId := keyText result.routeId
        if routeId.isEmpty || groupId.isEmpty || replyToMessageId.isEmpty then none
        else some ⟨routeId, groupId, replyToMessageId⟩

/-- `messageProcessingContentKey`, before it is hashed. -/
structure ContentKey where
  routeId : JsString
  channel : JsString
  target : SendTarget
  content : JsString
deriving DecidableEq

def messageProcessingContentKey (prepared : NormalizedAgentSend) (request : AgentSendRequest) : Option ContentKey :=
  if prepared.sender.agentType ≠ js "message_processing" then none
  else some ⟨prepared.routeId, prepared.channel, prepared.target, request.content⟩

/-- `MESSAGE_PROCESSING_CONTENT_DEDUPE_MS` -/
def messageProcessingContentDedupeMs : Nat := 2 * 60 * 1000

/-- `RECENT_REPLY_TARGET_DEDUPE_MS` -/
def recentReplyTargetDedupeMs : Nat := 10 * 60 * 1000

/-! ## The state -/

inductive ReceiptState where
  /-- With the execution that owns it. -/
  | sending (owner : Option Nat)
  | completed (result : AgentSendResult)
  | uncertain (error : JsString)
deriving DecidableEq

structure Receipt where
  deliveryId : JsString
  requestDigest : JsString
  state : ReceiptState
  updatedAt : Nat

structure RecentSuccessfulReply where
  deliveryId : JsString
  /-- `none` is the empty text. -/
  fingerprint : Option JsString
  result : AgentSendResult
  expiresAt : Nat

/-- The promise is known by its place. -/
structure RecentContentSend where
  promise : Nat
  expiresAt : Nat

inductive PromiseState where
  | opened
  /-- The authority refused to call `options.deliver`. -/
  | refused (error : JsString)
  | running (startedAt : Nat)
  | settled (startedAt endedAt : Nat) (outcome : Except JsString AgentSendResult)
  /-- Its process died before it settled. -/
  | lost

/-- A promise of `options.deliver`, by the call that made it. -/
structure DeliveryPromise where
  call : Nat
  state : PromiseState

structure Sends where
  /-- By file; `none` cannot be read. -/
  receipts : InsertionMap JsString (Option Receipt)
  /-- The executions of the process that is running. -/
  alive : Nat → Bool
  replies : InsertionMap ReplyKey RecentSuccessfulReply
  hydrated : Bool
  contents : InsertionMap ContentKey RecentContentSend
  promises : List DeliveryPromise
  /-- `contentDuplicate` of a call. -/
  contentDuplicate : Nat → Bool
  now : Nat
  /-- How often an authority was asked. -/
  checks : Nat

def Sends.initial : Sends :=
  ⟨.empty, fun _ ↦ false, .empty, false, .empty, [], fun _ ↦ false, 0, 0⟩

inductive IdempotencyState where
  | completed
  | missing
  | inProgress
  | uncertain
  | conflict
deriving DecidableEq

structure AgentSendIdempotencyInfo where
  deliveryId : JsString
  state : IdempotencyState
  duplicate : Bool
deriving DecidableEq

structure IdempotentAgentSendResponse where
  statusCode : Nat
  body : AgentSendResult
  idempotency : AgentSendIdempotencyInfo

/-- What `executeDurableDelivery` answers. -/
inductive DurableDeliveryOutcome where
  | completed (duplicate : Bool) (result : AgentSendResult)
  | pending (state : IdempotencyState) (duplicate : Bool) (reason : JsString)

/-! ## Responses -/

def statusCodeFor (result : AgentSendResult) : Nat :=
  match result.status with
  | .sent => 202
  | .draft => 200
  | .failed => 502
  | .blocked => 403

def completedResponse (deliveryId : JsString) (result : AgentSendResult) (duplicate : Bool) :
    IdempotentAgentSendResponse :=
  ⟨statusCodeFor result, result, ⟨deliveryId, .completed, duplicate⟩⟩

def nonTerminalResponse (deliveryId : JsString) (state : IdempotencyState) (reason : JsString) (statusCode : Nat)
    (duplicate : Bool) : IdempotentAgentSendResponse :=
  { statusCode
    body :=
      { ok := false
        status := .failed
        reason := some reason
        sentMessageId := none
        deliveryId := none
        sender := none
        channel := none
        routeId := none
        target := none }
    idempotency := ⟨deliveryId, state, duplicate⟩ }

/-- The result of another send, as that of this one. -/
def NormalizedAgentSend.present (prepared : NormalizedAgentSend) (deliveryId : JsString) (result : AgentSendResult) :
    AgentSendResult :=
  { result with
    deliveryId := some deliveryId
    sender := some prepared.sender
    channel := some prepared.channel
    routeId := some prepared.routeId
    target := some prepared.target }

/-! ## Recent replies -/

/-- The entry of a receipt, unless it has expired. -/
def receiptReply (now : Nat) (receipt : Receipt) : Option (ReplyKey × RecentSuccessfulReply) :=
  match receipt.state with
  | .completed result =>
    let expiresAt := receipt.updatedAt + recentReplyTargetDedupeMs
    if result.status ≠ .sent || decide (expiresAt ≤ now) then none
    else (recentReplyTargetKeyFromResult result).map (·, ⟨receipt.deliveryId, none, result, expiresAt⟩)
  | _ => none

def keepLatest (entries : InsertionMap ReplyKey RecentSuccessfulReply) (entry : ReplyKey × RecentSuccessfulReply) :
    InsertionMap ReplyKey RecentSuccessfulReply :=
  if (entries.get? entry.1).any fun existing ↦ decide (entry.2.expiresAt ≤ existing.expiresAt) then entries
  else entries.set entry.1 entry.2

/-- The entries of all the receipts, one for each key. -/
def receiptReplies (s : Sends) : InsertionMap ReplyKey RecentSuccessfulReply :=
  (s.receipts.values.filterMap fun receipt ↦ receipt.bind (receiptReply s.now)).foldl keepLatest .empty

/-- `hydrateRecentSuccessfulReplies`, when no check refuses it. -/
def hydrateRecentSuccessfulReplies (s : Sends) : Sends :=
  if s.hydrated then s
  else
    { s with
      replies := (receiptReplies s).entries.foldl keepLatest s.replies
      hydrated := true }

/-- The entry that `readRecentSuccessfulReply` reads, unless it has expired. -/
def liveReply (s : Sends) (key : ReplyKey) : Option RecentSuccessfulReply :=
  (s.replies.get? key).filter fun existing ↦ decide (s.now < existing.expiresAt)

end RabiRoute.AgentSend
