import RabiRoute.AgentRequests.Ledger

/-!
# The operations of the ledger

Each operation of `AgentRequestState`, as a program of accesses.  What an operation writes to a record is a
function of its own, so that its proofs can name it.
-/

open Collections Interleave

namespace RabiRoute.AgentRequests

/-- What one operation gets from outside: the ISO texts of its readings of the clock and of a later time,
the ids of `randomUUID`, the random delay below a bound, and the error of its write. -/
structure Env where
  now : Nat → JsString
  isoAfter : Nat → JsString
  randomUUID : Nat → JsString
  jitter : Nat → Nat
  write : Option Failure

namespace Operation

def access (a : Access) : Operation a.Answer := Program.perform a

def getRequest (id : JsString) : Operation (Option AgentRequestRecord) := access (.getRequest id)
def requestEntries : Operation (List (JsString × AgentRequestRecord)) := access .requestEntries
def assignRequest (id : JsString) (change : AgentRequestRecord → AgentRequestRecord) : Operation Unit :=
  access (.assignRequest id change)
def setRequest (id : JsString) (record : AgentRequestRecord) : Operation Unit := access (.setRequest id record)
def deleteRequest (id : JsString) : Operation Unit := access (.deleteRequest id)
def getDelivery (id : JsString) : Operation (Option PreparedEndpointDelivery) := access (.getDelivery id)
def hasDelivery (id : JsString) : Operation Bool := access (.hasDelivery id)
def deliveryEntries : Operation (List (JsString × PreparedEndpointDelivery)) := access .deliveryEntries
def assignDelivery (id : JsString) (change : PreparedEndpointDelivery → PreparedEndpointDelivery) : Operation Unit :=
  access (.assignDelivery id change)
def setDelivery (id : JsString) (delivery : PreparedEndpointDelivery) : Operation Unit :=
  access (.setDelivery id delivery)
def deleteDelivery (id : JsString) : Operation Unit := access (.deleteDelivery id)
def unavailableDeliveryIds : Operation (List JsString) := access .unavailableDeliveryIds

def ofExcept {α : Type} : Except Failure α → Operation α
  | .ok a => .ret a
  | .error failure => .raise failure

def raiseIf (condition : Bool) (failure : Failure) : Operation Unit :=
  if condition then .raise failure else .ret ()

/-- `try { persist() } catch (error) { rollback; throw error; }` -/
def persistOr (env : Env) (rollback : Operation Unit) : Operation Unit := do
  match ← access (.persist env.write) with
  | none => .ret ()
  | some failure => do
      rollback
      .raise failure

/-- Put records back as they were. -/
def restoreRequests : List (JsString × AgentRequestRecord) → Operation Unit
  | [] => .ret ()
  | (id, record) :: rest => do
      setRequest id record
      restoreRequests rest

end Operation

open Operation

/-- The record of an id that a preparation may name. -/
def getNamedRequest (id : Option JsString) : Operation (Option AgentRequestRecord) :=
  match presentText id with
  | none => .ret none
  | some id => getRequest id

/-- `before`: the records that stand under the ids, each with its id. -/
def requestsBefore : List (Option JsString) → Operation (List (JsString × AgentRequestRecord))
  | [] => .ret []
  | id :: ids =>
    match presentText id with
    | none => requestsBefore ids
    | some id => do
        match ← getRequest id with
        | none => requestsBefore ids
        | some record => do
            let before ← requestsBefore ids
            return (id, record) :: before

def hasEndpointDeliveryReservation (deliveryId : JsString) : Operation Bool := do
  let delivered ← hasDelivery deliveryId
  let unavailable ← unavailableDeliveryIds
  if delivered || decide (deliveryId ∈ unavailable) then .ret true
  else do
    let entries ← requestEntries
    return entries.any fun entry ↦
      entry.2.deliveryId = deliveryId || entry.2.pendingResponseDeliveryId = some deliveryId ||
        entry.2.response.any fun response ↦ response.deliveryId = deliveryId

/-! ## Endpoint deliveries -/

/-- The request of a delivery is gone, cancelled or another one. -/
def requestReservationLost (functions : Functions) (deliveryId : JsString)
    (preparation : AgentCommunicationPreparation) (request : Option AgentRequestRecord) : Except Failure Bool :=
  if (presentText preparation.requestId).isNone then .ok false
  else
    match request with
    | none => .ok true
    | some request =>
      if request.status = .cancelled || decide (request.deliveryId ≠ deliveryId) then .ok true
      else (sameAgentParty functions request.target preparation.target).map not

/-- The request that a delivery answers is gone, cancelled or reserved for another delivery. -/
def replyReservationLost (deliveryId : JsString) (preparation : AgentCommunicationPreparation)
    (original : Option AgentRequestRecord) : Bool :=
  (presentText preparation.inReplyToRequestId).isSome &&
    original.all fun original ↦
      original.status = .cancelled || !sameAgentPartyAddress original.source preparation.target ||
        (decide (original.pendingResponseDeliveryId ≠ some deliveryId) &&
          !original.response.any fun response ↦ response.deliveryId = deliveryId)

def assertEndpointDeliveryActive (functions : Functions) (deliveryId : JsString) :
    Operation PreparedEndpointDelivery := do
  match ← getDelivery deliveryId with
  | none => .raise (.error (js "Endpoint delivery is missing or cancelled."))
  | some delivery => do
      raiseIf (delivery.state = .cancelled) (.error (js "Endpoint delivery is missing or cancelled."))
      let request ← getNamedRequest delivery.preparation.requestId
      let original ← getNamedRequest delivery.preparation.inReplyToRequestId
      let lost ← ofExcept (requestReservationLost functions deliveryId delivery.preparation request)
      raiseIf (lost || replyReservationLost deliveryId delivery.preparation original)
        (.error (js ("Endpoint request was cancelled or its exact reservation changed; execution and " ++
          "reconciliation are forbidden.")))
      return delivery

/-- The delivery as it is bound. -/
def bound (env : Env) (delivery : PreparedEndpointDelivery) : PreparedEndpointDelivery :=
  { delivery with createdAt := some (env.now 0), updatedAt := some (env.now 0), attemptCount := some 0 }

def invalidPreparedDelivery : Failure := .error (js "Invalid prepared endpoint delivery.")

def checkConnectionSource (delivery : PreparedEndpointDelivery) : Except Failure Unit :=
  match delivery.source with
  | .endpoint _ => .ok ()
  | .connection _ => do
      let same ← sameAgentDeliverySource (some delivery.source) (agentDeliverySourceForParty delivery.preparation.source)
      failIf (!same) "Connection source evidence mismatch."

def bindEndpointDelivery (functions : Functions) (env : Env) (delivery : PreparedEndpointDelivery) :
    Operation Unit := do
  let _ ← ofExcept (normalizeAgentDeliverySource delivery.source)
  ofExcept (checkConnectionSource delivery)
  let present ← hasDelivery delivery.deliveryId
  raiseIf (present || decide (delivery.state ≠ .prepared) ||
    decide (delivery.promptHash ≠ agentDeliveryPromptHash functions delivery.prompt)) invalidPreparedDelivery
  let optionsHash ← ofExcept (endpointExecutionOptionsHash functions delivery.executionOptions)
  raiseIf (decide (delivery.executionOptionsHash ≠ optionsHash) ||
    decide (delivery.preparation.deliveryId ≠ delivery.deliveryId) ||
    !sameEndpoint? (some delivery.target) delivery.preparation.target.endpoint ||
    decide (delivery.target.sessionId ≠ delivery.preparation.target.threadId)) invalidPreparedDelivery
  setDelivery delivery.deliveryId (bound env delivery)
  persistOr env (deleteDelivery delivery.deliveryId)

def dispatched (env : Env) (delivery : PreparedEndpointDelivery) : PreparedEndpointDelivery :=
  { delivery with
    state := .dispatching
    dispatchAttemptId := some (env.randomUUID 0)
    lastAttemptAt := some (env.now 0)
    updatedAt := some (env.now 0)
    attemptCount := some (delivery.attemptCount.getD 0 + 1)
    blockedReason := none
    lastError := none }

def markEndpointDispatching (functions : Functions) (env : Env) (deliveryId : JsString) : Operation JsString := do
  let delivery ← assertEndpointDeliveryActive functions deliveryId
  raiseIf (delivery.state ≠ .prepared) (.error (js "Endpoint delivery cannot be redispatched."))
  assignDelivery deliveryId (dispatched env)
  persistOr env (setDelivery deliveryId delivery)
  return env.randomUUID 0

def retryDelayMs (retryCount : Nat) : Nat := min 60000 (1000 * 2 ^ min (retryCount - 1) 6)

def failed (env : Env) (message : JsString) (code : Option JsString) (blocked : Bool)
    (delivery : PreparedEndpointDelivery) : PreparedEndpointDelivery :=
  let noted := { delivery with
    updatedAt := some (env.now 0)
    lastError := some { message := cleanTextOr 1024 (some message), code := cleanText 100 code }
    blockedReason := if blocked then some (cleanTextOr 1024 (some message)) else delivery.blockedReason }
  if delivery.state = .prepared then
    let retryCount := delivery.retryCount.getD 0 + 1
    let delay := retryDelayMs retryCount
    { noted with
      retryCount := some retryCount
      nextAttemptAt := some (env.isoAfter (delay + env.jitter (min 1000 delay))) }
  else { noted with nextAttemptAt := none }

def noteEndpointDeliveryFailure (env : Env) (deliveryId message : JsString) (code : Option JsString)
    (blocked : Bool) : Operation Unit := do
  match ← getDelivery deliveryId with
  | none => .ret ()
  | some delivery =>
    if delivery.state = .committed || delivery.state = .cancelled then .ret ()
    else do
      assignDelivery deliveryId (failed env message code blocked)
      persistOr env (setDelivery deliveryId delivery)

def isHexDigit (u : UInt16) : Bool := (48 ≤ u && u ≤ 57) || (97 ≤ u && u ≤ 102) || (65 ≤ u && u ≤ 70)

/-- `/^[a-f0-9]{8}-[a-f0-9]{4}-4[a-f0-9]{3}-[89ab][a-f0-9]{3}-[a-f0-9]{12}$/i` -/
def isUuid (text : JsString) : Bool :=
  text.length = 36 &&
    (text.zipIdx.all fun (u, i) ↦
      if i = 8 || i = 13 || i = 18 || i = 23 then u = 45
      else if i = 14 then u = 52
      else if i = 19 then decide (u ∈ [56, 57, 97, 98, 65, 66])
      else isHexDigit u)

def validateEndpointDeliveryNoFrameProof (functions : Functions) (delivery : PreparedEndpointDelivery)
    (proof : EndpointDeliveryNoFrameProof) : Except Failure Unit :=
  failIf (decide (proof.deliveryId ≠ delivery.deliveryId) || decide (proof.generation ≠ delivery.generation) ||
      decide (proof.promptHash ≠ delivery.promptHash) ||
      decide (proof.executionOptionsHash ≠ delivery.executionOptionsHash) ||
      (presentText delivery.dispatchAttemptId).isNone ||
      decide (some proof.dispatchAttemptId ≠ delivery.dispatchAttemptId) ||
      !sameAgentEndpoint proof.endpoint delivery.target || !isUuid proof.attemptId ||
      decide (proof.attemptSequence < 1) || decide (2 ^ 53 ≤ proof.attemptSequence) ||
      !functions.isDate proof.observedAt)
    "Transport no-frame proof does not match the exact original delivery and attempt."

/-- The delivery that was proven unsent. -/
def unsent (env : Env) (proof : Option EndpointDeliveryNoFrameProof) (delivery : PreparedEndpointDelivery) :
    PreparedEndpointDelivery :=
  { delivery with
    lastNoFrameProof := proof.or delivery.lastNoFrameProof
    state := .prepared
    updatedAt := some (env.now 0) }

/-- The proof has been accepted for this delivery before. -/
def alreadyProven (proof : EndpointDeliveryNoFrameProof) (delivery : PreparedEndpointDelivery) : Bool :=
  delivery.state = .prepared && delivery.lastNoFrameProof.any fun last ↦ last.attemptId = proof.attemptId

def checkNoFrameProof (functions : Functions) (delivery : PreparedEndpointDelivery)
    (proof : Option EndpointDeliveryNoFrameProof) : Except Failure Unit :=
  match proof with
  | none => .ok ()
  | some proof => validateEndpointDeliveryNoFrameProof functions delivery proof

def unprovenDispatch : Failure :=
  .error (js "Only a proven unsent dispatch can return to its prepared reservation.")

def markEndpointNotSent (functions : Functions) (env : Env) (deliveryId : JsString)
    (proof : Option EndpointDeliveryNoFrameProof) : Operation Unit := do
  match ← getDelivery deliveryId with
  | none => .raise unprovenDispatch
  | some delivery =>
    if proof.any fun proof ↦ alreadyProven proof delivery then ofExcept (checkNoFrameProof functions delivery proof)
    else do
      raiseIf (decide (delivery.state ≠ .dispatching) || delivery.receipt.isSome) unprovenDispatch
      ofExcept (checkNoFrameProof functions delivery proof)
      assignDelivery deliveryId (unsent env proof)
      persistOr env (setDelivery deliveryId delivery)

/-! ## Requests -/

/-- The normal form of the input of `prepare`. -/
structure PreparedInput where
  source : AgentRequestParty
  target : AgentRequestParty
  responsePolicy : AgentResponsePolicy
  responseInstruction : Option JsString
  inReplyToRequestId : Option JsString
  result : Option JsString
  nextAction : Option JsString
  deliveryId : JsString
  messageProcessingRequirementId : Option JsString
  planId : Option JsString

def cleanMessageResult (functions : Functions) (value : Option JsString) : JsString :=
  (functions.normalizeRabiMessageContent (value.getD [])).take 12000

def checkPolicy (input : PrepareAgentCommunicationInput) : Except Failure AgentResponsePolicy :=
  match input.responsePolicy with
  | none => fail "responsePolicy must be required or none."
  | some .required =>
    if (cleanText 4000 input.responseInstruction).isNone then
      fail "responseInstruction is required when responsePolicy is required."
    else .ok .required
  | some .none => .ok .none

/-- `prepare` up to its first access. -/
def prepareInput (functions : Functions) (env : Env) (input : PrepareAgentCommunicationInput) :
    Except Failure PreparedInput := do
  let source ← normalizedParty functions input.source .source
  let target ← normalizedParty functions input.target
  let responsePolicy ← checkPolicy input
  let deliveryId ← match input.deliveryId with
    | none => .ok (env.randomUUID 0)
    | some deliveryId => callerAgentDeliveryId deliveryId
  return {
    source
    target
    responsePolicy
    responseInstruction := cleanText 4000 input.responseInstruction
    inReplyToRequestId := cleanText 100 input.inReplyToRequestId
    result := presentText (some (cleanMessageResult functions input.result))
    nextAction := cleanText 4000 input.nextAction
    deliveryId
    messageProcessingRequirementId := cleanText 300 input.messageProcessingRequirementId
    planId := cleanText 300 input.planId }

def reservationExists : Failure :=
  .contract (js "Original delivery reservation already exists; automatic replay is forbidden.") (js "deliveryId")
    (js "validation")
    (js ("Reconcile the original delivery; do not create another request when its endpoint evidence is " ++
      "unavailable."))
    (js "AGENT_DELIVERY_RESERVATION_EXISTS")

/-- `AgentReplyStateError` for the reasons of the ledger. -/
def replyStateFailure (record : AgentRequestRecord) (reason : String) : Failure :=
  .replyState record.id record.status.text (js reason)
    (match record.status with
    | .pending_delivery =>
      js ("Verify the original delivery in the original target task, then retry this reply with the same " ++
        "requestId. Do not resend the original task or create a replacement request.")
    | .responded => js "Read the original request response; it is already recorded. Do not send it again."
    | _ => js ("Read the cancellation reason and current plan before deciding whether a new task is needed."))

def notFound (requestId : JsString) : Failure := .error (js "Agent request not found: " ++ requestId)

/-- The request waits for the reply that the delivery carries. -/
def reserved (env : Env) (deliveryId : JsString) (record : AgentRequestRecord) : AgentRequestRecord :=
  { record with pendingResponseDeliveryId := some deliveryId, updatedAt := env.now 0 }

/-- The checks of the request that a preparation answers. -/
def checkReply (record : AgentRequestRecord) (input : PreparedInput) : Except Failure Unit := do
  if record.status ≠ .awaiting_response then
    throw (replyStateFailure record "request_state_does_not_accept_reply")
  if (presentText record.pendingResponseDeliveryId).isSome then
    throw (.error (js "Agent request already has a response delivery in progress: " ++
      input.inReplyToRequestId.getD []))
  failIf (!sameAgentPartyAddress input.target record.source)
    "Agent response must be sent back to the original source task."
  failIf input.result.isNone "result is required when replying to an Agent request."
  failIf input.nextAction.isNone "nextAction is required when replying to an Agent request."

/-- Reserve the request that the preparation answers; the record as it was before. -/
def reserveReply (env : Env) (input : PreparedInput) : Operation (Option (JsString × AgentRequestRecord)) :=
  match input.inReplyToRequestId with
  | none => do
      raiseIf (input.result.isSome || input.nextAction.isSome)
        (.error (js "result and nextAction require inReplyToRequestId."))
      return none
  | some id => do
      match ← getRequest id with
      | none => .raise (notFound id)
      | some record => do
          ofExcept (checkReply record input)
          assignRequest id (reserved env input.deliveryId)
          return some (id, record)

/-- The request that a preparation opens. -/
def opened (env : Env) (input : PreparedInput) (requestId : JsString) : AgentRequestRecord where
  id := requestId
  deliveryId := input.deliveryId
  status := .pending_delivery
  source := input.source
  target := input.target
  responseInstruction := input.responseInstruction.getD []
  messageProcessingRequirementId := input.messageProcessingRequirementId
  planId := input.planId
  createdAt := env.now 1
  updatedAt := env.now 1

def openRequest (env : Env) (input : PreparedInput) : Operation (Option JsString) :=
  match input.responsePolicy with
  | .none => return none
  | .required => do
      setRequest (env.randomUUID 1) (opened env input (env.randomUUID 1))
      return some (env.randomUUID 1)

/-- Delete the request that was opened, and put back the one that was reserved. -/
def undoPrepare (requestId : Option JsString) (replied : Option (JsString × AgentRequestRecord)) : Operation Unit := do
  match requestId with
  | none => .ret ()
  | some id => deleteRequest id
  restoreRequests (replied.map fun entry ↦ (entry.2.id, entry.2)).toList

/-- A delivery id that the caller has chosen is held by nothing else. -/
def checkUnreserved (input : PrepareAgentCommunicationInput) (deliveryId : JsString) : Operation Unit := do
  match input.deliveryId with
  | none => .ret ()
  | some _ => do
      let exists_ ← hasEndpointDeliveryReservation deliveryId
      raiseIf exists_ reservationExists

/-- `prepare` once its input is checked. -/
def reservePrepared (env : Env) (prepared : PreparedInput) : Operation AgentCommunicationPreparation := do
  let replied ← reserveReply env prepared
  let requestId ← openRequest env prepared
  if replied.isSome || requestId.isSome then persistOr env (undoPrepare requestId replied) else .ret ()
  return {
    deliveryId := prepared.deliveryId
    requestId
    inReplyToRequestId := prepared.inReplyToRequestId
    responsePolicy := prepared.responsePolicy
    responseInstruction := prepared.responseInstruction
    result := prepared.result
    nextAction := prepared.nextAction
    source := prepared.source
    target := prepared.target
    messageProcessingRequirementId := prepared.messageProcessingRequirementId
    planId := prepared.planId }

def prepare (functions : Functions) (env : Env) (input : PrepareAgentCommunicationInput) :
    Operation AgentCommunicationPreparation := do
  let prepared ← ofExcept (prepareInput functions env input)
  checkUnreserved input prepared.deliveryId
  reservePrepared env prepared

/-! ## Responses -/

def answered (response : AgentRequestResponse) (record : AgentRequestRecord) : AgentRequestRecord :=
  { record with status := .responded, response := some response, updatedAt := response.respondedAt }

/-- The response that `recordConnectionResponse` is to record. -/
def connectionResponse (functions : Functions) (env : Env) (actualSource : AgentRequestParty)
    (responseDeliveryId : Option JsString) (result nextAction : JsString) : Except Failure AgentRequestResponse := do
  let source ← normalizedParty functions actualSource .source
  let deliveryId ← match responseDeliveryId with
    | none => .ok none
    | some id => (callerAgentDeliveryId id).map some
  let responseResult := cleanMessageResult functions (some result)
  let responseNext := cleanTextOr 4000 (some nextAction)
  match deliveryId with
  | none => fail "A stable response delivery ID is required."
  | some deliveryId => do
      failIf responseResult.isEmpty "result is required when replying to an Agent request."
      failIf responseNext.isEmpty "nextAction is required when replying to an Agent request."
      return { deliveryId, by_ := source, result := responseResult, nextAction := responseNext,
               respondedAt := env.now 0 }

def responseConflict : Failure :=
  .contract (js "Response conflicts with the original recorded result.") (js "deliveryId") (js "validation")
    (js "Read the original request and retain the original result and response delivery ID.")
    (js "AGENT_DELIVERY_ID_CONFLICT")

def responseIdReserved : Failure :=
  .contract (js "Response delivery ID is already reserved by another operation.") (js "deliveryId") (js "validation")
    (js "Retain the original operation ID and use a distinct caller ID for a different response.")
    (js "AGENT_DELIVERY_ID_CONFLICT")

/-- The recorded response is the one that is to be recorded. -/
def sameResponse (response : AgentRequestResponse) (recorded : Option AgentRequestResponse) : Bool :=
  recorded.any fun recorded ↦
    recorded.deliveryId = response.deliveryId && recorded.result = response.result &&
      recorded.nextAction = response.nextAction

def recordConnectionResponse (functions : Functions) (env : Env) (requestId : JsString)
    (actualSource : AgentRequestParty) (responseDeliveryId : Option JsString) (result nextAction : JsString) :
    Operation AgentRequestRecord := do
  match ← getRequest (cleanTextOr 100 (some requestId)) with
  | none => .raise (notFound requestId)
  | some record => do
      raiseIf (record.source.connection.isNone || record.source.endpoint.isSome)
        (.error (js "This request has a native task reply destination."))
      let response ← ofExcept (connectionResponse functions env actualSource responseDeliveryId result nextAction)
      if record.status = .responded then do
        raiseIf (!sameResponse response record.response) responseConflict
        return record
      else do
        raiseIf (decide (record.status ≠ .awaiting_response) || (presentText record.pendingResponseDeliveryId).isSome)
          (replyStateFailure record (if (presentText record.pendingResponseDeliveryId).isSome then
            "response_delivery_in_progress" else "request_state_does_not_accept_reply"))
        let exists_ ← hasEndpointDeliveryReservation response.deliveryId
        raiseIf exists_ responseIdReserved
        assignRequest (cleanTextOr 100 (some requestId)) (answered response)
        persistOr env (setRequest record.id record)
        return answered response record

def bindResponseEvidence (functions : Functions) (env : Env) (preparation : AgentCommunicationPreparation)
    (prompt : JsString) : Operation Unit :=
  match presentText preparation.inReplyToRequestId with
  | none => .ret ()
  | some id => do
      match ← getRequest id with
      | none => .raise (.error (js "Response evidence requires the current delivery reservation."))
      | some record => do
          raiseIf (record.pendingResponseDeliveryId ≠ some preparation.deliveryId)
            (.error (js "Response evidence requires the current delivery reservation."))
          assignRequest id fun record ↦ { record with
            pendingResponseEvidence :=
              some { promptHash := agentDeliveryPromptHash functions prompt, preparation } }
          persistOr env (assignRequest id fun current ↦
            { current with pendingResponseEvidence := record.pendingResponseEvidence })

/-! ## Commits -/

/-- What a commit is told of the delivery. -/
structure CommitReceipt where
  action : Option JsString := none
  transport : Option JsString := none

/-- The request is answered by the delivery that it waited for. -/
def replied (env : Env) (preparation : AgentCommunicationPreparation) (record : AgentRequestRecord) :
    AgentRequestRecord :=
  { record with
    pendingResponseDeliveryId := none
    pendingResponseEvidence := none
    status := .responded
    response := some {
      deliveryId := preparation.deliveryId
      by_ := preparation.source
      result := preparation.result.getD []
      nextAction := preparation.nextAction.getD []
      respondedAt := env.now 0 }
    updatedAt := env.now 0 }

/-- The request is delivered, unless it was so before. -/
def delivered (env : Env) (receipt : CommitReceipt) (record : AgentRequestRecord) : AgentRequestRecord :=
  if record.status = .pending_delivery then
    { record with
      status := .awaiting_response
      deliveredAt := some (env.now 0)
      deliveryAction := cleanText 80 receipt.action
      deliveryTransport := cleanText 80 receipt.transport
      updatedAt := env.now 0 }
  else record

/-- The reply has been recorded by this delivery before. -/
def alreadyReplied (preparation : AgentCommunicationPreparation) (record : AgentRequestRecord) : Bool :=
  record.status = .responded && record.response.any fun response ↦ response.deliveryId = preparation.deliveryId

/-- The reservation of the request that a preparation opened still stands. -/
def checkRequestReservation (preparation : AgentCommunicationPreparation) : Operation Unit := do
  match presentText preparation.requestId with
  | none => .ret ()
  | some id => do
      let request ← getRequest id
      raiseIf (request.all fun request ↦
          decide (request.deliveryId ≠ preparation.deliveryId) || request.status = .cancelled)
        (.error (js "Agent request delivery reservation is missing or cancelled: " ++ id))

/-- The requests that a commit answers: the request that was opened and the one that was replied to. -/
structure CommitResult where
  request : Option AgentRequestRecord := none
  repliedRequest : Option AgentRequestRecord := none

def responseReservationMissing (id : JsString) : Failure :=
  .error (js "Agent response delivery reservation is missing: " ++ id)

/-- Commit the request that the preparation opened. -/
def commitRequest (env : Env) (preparation : AgentCommunicationPreparation) (receipt : CommitReceipt) :
    Operation (Option AgentRequestRecord) := do
  match presentText preparation.requestId with
  | none => return none
  | some id => do
      match ← getRequest id with
      | none => .raise (.error (js "Agent request delivery reservation is missing: " ++ id))
      | some current => do
          raiseIf (current.deliveryId ≠ preparation.deliveryId)
            (.error (js "Agent request delivery reservation is missing: " ++ id))
          raiseIf (current.status = .cancelled) (.error (js "Agent request delivery was cancelled: " ++ id))
          assignRequest id (delivered env receipt)
          return some (delivered env receipt current)

def finishCommit (env : Env) (preparation : AgentCommunicationPreparation) (receipt : CommitReceipt)
    (before : List (JsString × AgentRequestRecord)) (repliedRequest : Option AgentRequestRecord) :
    Operation CommitResult := do
  let request ← commitRequest env preparation receipt
  if repliedRequest.isSome || request.isSome then persistOr env (restoreRequests before) else .ret ()
  return { request, repliedRequest }

def commit (env : Env) (preparation : AgentCommunicationPreparation) (receipt : CommitReceipt) :
    Operation CommitResult := do
  let before ← requestsBefore [preparation.requestId, preparation.inReplyToRequestId]
  checkRequestReservation preparation
  match presentText preparation.inReplyToRequestId with
  | none => finishCommit env preparation receipt before none
  | some id => do
      match ← getRequest id with
      | none => .raise (responseReservationMissing id)
      | some current =>
        if alreadyReplied preparation current then do
          let request ← match presentText preparation.requestId with
            | none => .ret none
            | some requestId => getRequest (cleanTextOr 100 (some requestId))
          return { request, repliedRequest := some current }
        else do
          raiseIf (current.pendingResponseDeliveryId ≠ some preparation.deliveryId) (responseReservationMissing id)
          assignRequest id (replied env preparation)
          finishCommit env preparation receipt before (some (replied env preparation current))

/-- The delivery with its receipt. -/
def received (env : Env) (receipt : EndpointDeliveryReceipt) (delivery : PreparedEndpointDelivery) :
    PreparedEndpointDelivery :=
  { delivery with
    state := .committed
    receipt := some receipt
    updatedAt := some (env.now 0)
    nextAttemptAt := none
    retryCount := none
    lastError := none
    blockedReason := none }

/-- The receipt is of this delivery: its generation, its prompt, its options and its endpoint. -/
def receiptMatches (receipt : EndpointDeliveryReceipt) (delivery : PreparedEndpointDelivery) : Bool :=
  receipt.accepted && receipt.deliveryId = delivery.deliveryId && receipt.generation = delivery.generation &&
    receipt.promptHash = delivery.promptHash && receipt.executionOptionsHash = delivery.executionOptionsHash &&
    sameAgentEndpoint receipt.endpoint delivery.target && !receipt.action.isEmpty && !receipt.transport.isEmpty

def commitEndpointReceipt (functions : Functions) (env : Env) (deliveryId : JsString)
    (receipt : EndpointDeliveryReceipt) : Operation Unit := do
  let delivery ← assertEndpointDeliveryActive functions deliveryId
  raiseIf (!receiptMatches receipt delivery) (.error (js "Endpoint receipt identity mismatch."))
  if delivery.state = .committed then .ret ()
  else do
    raiseIf (delivery.state ≠ .dispatching) (.error (js "Endpoint delivery was not dispatched."))
    assignDelivery deliveryId (received env receipt)
    let tracked := (presentText delivery.preparation.requestId).isSome ||
      (presentText delivery.preparation.inReplyToRequestId).isSome
    Program.attempt
      (do
        let _ ← commit env delivery.preparation { action := some receipt.action, transport := some receipt.transport }
        if tracked then .ret () else persistOr env (.ret ()))
      fun failure ↦ do
        setDelivery deliveryId delivery
        .raise failure

/-! ## Cancellations -/

/-- The request that waited for the delivery waits no longer. -/
def released (env : Env) (record : AgentRequestRecord) : AgentRequestRecord :=
  { record with pendingResponseDeliveryId := none, pendingResponseEvidence := none, updatedAt := env.now 0 }

/-- Release the request that waits for the reply of the preparation. -/
def abortReply (env : Env) (preparation : AgentCommunicationPreparation) : Operation Bool := do
  match presentText preparation.inReplyToRequestId with
  | none => return false
  | some id => do
      let current ← getRequest id
      if current.any fun current ↦ current.pendingResponseDeliveryId = some preparation.deliveryId then do
        assignRequest id (released env)
        return true
      else return false

/-- Delete the request that the preparation opened. -/
def abortRequest (preparation : AgentCommunicationPreparation) : Operation Bool := do
  match presentText preparation.requestId with
  | none => return false
  | some id => do
      let current ← getRequest id
      if current.any fun current ↦
          current.status = .pending_delivery && current.deliveryId = preparation.deliveryId then do
        deleteRequest id
        return true
      else return false

/-- Put back the delivery that was deleted. -/
def restoreDelivery (delivery : Option PreparedEndpointDelivery) : Operation Unit :=
  match delivery with
  | none => .ret ()
  | some delivery => setDelivery delivery.deliveryId delivery

def abort (env : Env) (preparation : AgentCommunicationPreparation) : Operation Unit := do
  let endpointDelivery ← getDelivery preparation.deliveryId
  raiseIf (endpointDelivery.any fun delivery ↦ decide (delivery.state ≠ .prepared))
    (.error (js "Dispatched endpoint delivery cannot release its durable reservation."))
  let before ← requestsBefore [preparation.requestId, preparation.inReplyToRequestId]
  if endpointDelivery.isSome then deleteDelivery preparation.deliveryId else .ret ()
  let releasedReply ← abortReply env preparation
  let deletedRequest ← abortRequest preparation
  if endpointDelivery.isSome || releasedReply || deletedRequest then
    persistOr env (do
      restoreRequests before
      restoreDelivery endpointDelivery)
  else .ret ()

def trackingCancelled : JsString :=
  js ("Delivery tracking was cancelled. This does not prove that the target never accepted the original " ++
    "prompt.")

/-- The delivery is no longer tracked. -/
def untracked (env : Env) (message : JsString) (delivery : PreparedEndpointDelivery) : PreparedEndpointDelivery :=
  { delivery with
    state := .cancelled
    updatedAt := some (env.now 0)
    lastError := some { code := some (js "DELIVERY_CANCELLED"), message }
    nextAttemptAt := none
    blockedReason := none }

/-- A cancellation of the request also cancels this delivery. -/
def affected (requestId : JsString) (delivery : PreparedEndpointDelivery) : Bool :=
  decide (delivery.state ≠ .committed) && delivery.receipt.isNone && decide (delivery.state ≠ .cancelled) &&
    (delivery.preparation.requestId = some requestId || delivery.preparation.inReplyToRequestId = some requestId)

def assignDeliveries (change : PreparedEndpointDelivery → PreparedEndpointDelivery) : List JsString → Operation Unit
  | [] => .ret ()
  | id :: ids => do
      assignDelivery id change
      assignDeliveries change ids

def restoreDeliveries : List PreparedEndpointDelivery → Operation Unit
  | [] => .ret ()
  | delivery :: rest => do
      setDelivery delivery.deliveryId delivery
      restoreDeliveries rest

def withdrawn (env : Env) (reason : Option JsString) (record : AgentRequestRecord) : AgentRequestRecord :=
  { record with
    status := .cancelled
    cancelledAt := some (env.now 0)
    cancelReason := reason
    pendingResponseDeliveryId := none
    pendingResponseEvidence := none
    updatedAt := env.now 0 }

def cancel (env : Env) (requestId : JsString) (reason : Option JsString) : Operation AgentRequestRecord := do
  match ← getRequest (cleanTextOr 100 (some requestId)) with
  | none => .raise (notFound requestId)
  | some record =>
    if record.status = .responded || record.status = .cancelled then return record
    else do
      let entries ← deliveryEntries
      let cancelled := entries.filter fun entry ↦ affected record.id entry.2
      assignDeliveries (untracked env ((cleanText 1024 reason).getD trackingCancelled)) (cancelled.map Prod.fst)
      assignRequest (cleanTextOr 100 (some requestId)) (withdrawn env (cleanText 2000 reason))
      persistOr env (do
        setRequest record.id record
        restoreDeliveries (cancelled.map Prod.snd))
      return withdrawn env (cleanText 2000 reason) record

/-- The request that is cancelled with the delivery. -/
def linkedRequest (functions : Functions) (delivery : PreparedEndpointDelivery) (deliveryId : JsString)
    (request original : Option AgentRequestRecord) : Except Failure (Option AgentRequestRecord) := do
  let owns ← match request with
    | none => .ok false
    | some request =>
      if request.deliveryId ≠ deliveryId then .ok false
      else do
        let sameSource ← sameAgentParty functions request.source delivery.preparation.source
        if sameSource then sameAgentParty functions request.target delivery.preparation.target else .ok false
  if owns then return request
  else return original.filter fun original ↦
    original.pendingResponseDeliveryId = some deliveryId &&
      sameAgentPartyAddress original.source delivery.preparation.target

def cancelEndpointDelivery (functions : Functions) (env : Env) (deliveryId : JsString) :
    Operation (Option PreparedEndpointDelivery) := do
  match ← getDelivery deliveryId with
  | none => .raise (.coded (js "Original delivery evidence is unavailable.") (js "DELIVERY_EVIDENCE_UNAVAILABLE"))
  | some delivery => do
      raiseIf (delivery.state = .committed || delivery.receipt.isSome)
        (.coded (js "An accepted delivery cannot be cancelled.") (js "DELIVERY_ALREADY_RECEIVED"))
      if delivery.state = .cancelled then return some delivery
      else do
        let request ← getNamedRequest delivery.preparation.requestId
        let original ← getNamedRequest delivery.preparation.inReplyToRequestId
        let linked ← ofExcept (linkedRequest functions delivery deliveryId request original)
        match linked.filter fun linked ↦ decide (linked.status ≠ .responded) && decide (linked.status ≠ .cancelled) with
        | some linked => do
            let _ ← cancel env linked.id (some trackingCancelled)
            getDelivery deliveryId
        | none => do
            assignDelivery deliveryId (untracked env trackingCancelled)
            persistOr env (setDelivery deliveryId delivery)
            getDelivery deliveryId

/-! ## Parties that changed -/

/-- What `resolve` answers for a party: a party, `null` or `undefined`. -/
inductive Resolution where
  | party (party : AgentRequestParty)
  | gone
  | unknown
deriving DecidableEq

/-- `` `${row.threadId}\n${row.workspace || ""}` `` -/
def historyKey (party : AgentRequestParty) : JsString := party.threadId ++ [10] ++ party.workspace.getD []

def appendPartyHistory (functions : Functions) (history : Option (List AgentRequestParty))
    (party : AgentRequestParty) (role : PartyRole) : Except Failure (List AgentRequestParty) :=
  (normalizedParty functions party role).map fun party ↦
    let rows := history.getD [] ++ [party]
    sliceLast 20 (InsertionMap.empty.setAll (rows.map fun row ↦ (historyKey row, row))).values

/-- The party that takes the place of another one. -/
def movedTo (resolution : Resolution) (party : AgentRequestParty) : Option AgentRequestParty :=
  match resolution with
  | .party next => if next.threadId ≠ party.threadId then some next else none
  | _ => none

def poolChanged : JsString :=
  js ("Message Agent pool changed before this tracked delivery completed; the stale task binding was " ++
    "cancelled.")

/-- Replace the source of the request. -/
def moveSource (functions : Functions) (id : JsString) (record : AgentRequestRecord) (resolution : Resolution) :
    Operation Bool := do
  match movedTo resolution record.source with
  | none => return false
  | some next => do
      let history ← ofExcept (appendPartyHistory functions record.sourceHistory record.source .source)
      assignRequest id fun record ↦ { record with sourceHistory := some history }
      let source ← ofExcept (normalizedParty functions next .source)
      assignRequest id fun record ↦ { record with source }
      return true

def moveTarget (functions : Functions) (id : JsString) (record : AgentRequestRecord) (resolution : Resolution) :
    Operation Bool := do
  match movedTo resolution record.target with
  | none => return false
  | some next => do
      let history ← ofExcept (appendPartyHistory functions record.targetHistory record.target .target)
      assignRequest id fun record ↦ { record with targetHistory := some history }
      let target ← ofExcept (normalizedParty functions next)
      assignRequest id fun record ↦ { record with target }
      return true

/-- The request follows no replacement of a party. -/
def fixedParties (record : AgentRequestRecord) : Bool :=
  (record.status ≠ .pending_delivery && record.status ≠ .awaiting_response) ||
    record.source.endpoint.isSome || record.source.connection.isSome || record.target.endpoint.isSome

/-- What `reconcileOpenParties` has made of the requests. -/
structure Reconciled where
  reassigned : List AgentRequestRecord := []
  cancelled : List AgentRequestRecord := []

def Reconciled.changed (reconciled : Reconciled) : Bool :=
  !reconciled.reassigned.isEmpty || !reconciled.cancelled.isEmpty

/-- One request of `reconcileOpenParties`. -/
def reconcileRequest (functions : Functions) (env : Env)
    (resolve : AgentRequestParty → AgentRequestRecord → PartyRole → Resolution)
    (entry : JsString × AgentRequestRecord) (reconciled : Reconciled) : Operation Reconciled := do
  let record := entry.2
  if fixedParties record then return reconciled
  else
    let source := resolve record.source record .source
    let target := resolve record.target record .target
    if source = .unknown && target = .unknown then return reconciled
    else if record.status = .pending_delivery || source = .gone || target = .gone then do
      assignRequest entry.1 (withdrawn env (some poolChanged))
      return { reconciled with
        cancelled := reconciled.cancelled ++ [withdrawn env (some poolChanged) record] }
    else do
      let sourceMoved ← moveSource functions entry.1 record source
      let targetMoved ← moveTarget functions entry.1 record target
      if sourceMoved || targetMoved then do
        assignRequest entry.1 (released env)
        let current ← getRequest entry.1
        return { reconciled with reassigned := reconciled.reassigned ++ current.toList }
      else return reconciled

def reconcileRequests (functions : Functions) (env : Env)
    (resolve : AgentRequestParty → AgentRequestRecord → PartyRole → Resolution) :
    List (JsString × AgentRequestRecord) → Reconciled → Operation Reconciled
  | [], reconciled => return reconciled
  | entry :: entries, reconciled => do
      let reconciled ← reconcileRequest functions env resolve entry reconciled
      reconcileRequests functions env resolve entries reconciled

def reconcileOpenParties (functions : Functions) (env : Env)
    (resolve : AgentRequestParty → AgentRequestRecord → PartyRole → Resolution) : Operation Reconciled := do
  let entries ← requestEntries
  let reconciled ← reconcileRequests functions env resolve entries {}
  if reconciled.changed then persistOr env (.ret ()) else .ret ()
  return reconciled

end RabiRoute.AgentRequests
