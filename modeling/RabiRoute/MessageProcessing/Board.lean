import RabiRoute.MessageProcessing.Outcome
import RabiRoute.Transitions.System

/-!
# The message board

`MessageProcessingBoardStore`: the requirements, the origins of plans and the dedupe records, which
are written to the state file after each operation and read back when the board is constructed.
-/

open Collections Transitions

namespace RabiRoute.MessageProcessing

/-- The readings of the clock in one operation, in their order. -/
structure Clock where
  reading : Nat → Time
  mono : ∀ i j, i ≤ j → reading i ≤ reading j

/-- What makes a message the same message. -/
structure SourceIdentity where
  routeId : JsString
  endpoint : JsString
  conversationKey : JsString
  messageIds : List JsString

/-- The functions of the language that the board uses: the digest of an identity (the SHA-256 of its
JSON text, in hexadecimal), the ISO text of a time, and `toLowerCase`. -/
structure Functions where
  digest : SourceIdentity → JsString
  toISOString : Time → JsString
  toLowerCase : JsString → JsString

/-- The order of `sort()` on texts: by code units. -/
def textLe (a b : JsString) : Bool := decide (a ≤ b)

def sourceIdentity (source : Source) : SourceIdentity where
  routeId := source.routeId
  endpoint := source.endpoint
  conversationKey := source.conversationKey
  messageIds := source.messageIds.dedup.mergeSort textLe

def messageSourceDedupeKey (functions : Functions) (source : Source) : JsString :=
  functions.digest (sourceIdentity source)

structure Board where
  requirements : InsertionMap JsString Requirement := .empty
  planOrigins : InsertionMap JsString PlanOrigin := .empty
  dedupeRecords : InsertionMap JsString Time := .empty

/-- What an operation answers when it does not throw. -/
inductive Result where
  | done
  | requirement (requirement : Option Requirement)
  | created (requirement : Requirement)
  | existing (requirement : Requirement)
  | replay_suppressed (dedupeKey : JsString)
  | replaced (requirements planOrigins : Nat)
  | pruned (requirements planOrigins : Nat)

/-- How the body of an operation ends. -/
inductive Ending where
  | returns (result : Result)
  | persists (result : Result)
  | throws (message : JsString)

/-! ## Pruning -/

def requirementRetentionMs (requirement : Requirement) : Nat :=
  match requirement.status with
  | .sent | .not_required | .send_failed => transientResultRetentionMs
  | _ => requirementRetention

def isHexDigit (u : UInt16) : Bool := (48 ≤ u && u ≤ 57) || (97 ≤ u && u ≤ 102) || (65 ≤ u && u ≤ 70)

/-- `/^[a-f0-9]{64}$/i` -/
def isDedupeKey (key : JsString) : Bool := key.length = 64 && key.all isHexDigit

def retainDedupeKey (dedupeKey : JsString) (createdAt now : Time) (records : InsertionMap JsString Time) :
    InsertionMap JsString Time :=
  let expiresAt := createdAt + dedupeRetentionMs
  if !isDedupeKey dedupeKey || expiresAt ≤ now then records
  else
    match records.get? dedupeKey with
    | some existing => if existing < expiresAt then records.set dedupeKey expiresAt else records
    | none => records.set dedupeKey expiresAt

/-- Whether the requirement has reached the age at which it leaves the board. -/
def expired (now : Time) (requirement : Requirement) : Bool :=
  requirementRetentionMs requirement ≤ now - requirement.createdAt

/-- `pruneExpiredState` for one requirement. -/
def pruneRequirement (now : Time) (board : Board) (entry : JsString × Requirement) : Board :=
  if expired now entry.2 then
    { board with
      requirements := board.requirements.erase entry.1
      dedupeRecords :=
        if entry.2.kind = .message_reply then
          retainDedupeKey entry.2.dedupeKey entry.2.createdAt now board.dedupeRecords
        else board.dedupeRecords }
  else board

def originExpired (now : Time) (origin : PlanOrigin) : Bool := planOriginRetentionMs ≤ now - origin.linkedAt

/-- `pruneExpiredState`: the board that stays. -/
def pruneExpiredState (now : Time) (board : Board) : Board :=
  board.requirements.entries.foldl (pruneRequirement now)
    { board with
      dedupeRecords := board.dedupeRecords.keepIf fun _ expiresAt ↦ now < expiresAt
      planOrigins := board.planOrigins.keepIf fun _ origin ↦ !originExpired now origin }

/-- The requirements and the origins that `pruneExpiredState` removes. -/
def prunedCounts (now : Time) (board : Board) : Nat × Nat :=
  ((board.requirements.values.filter (expired now)).length,
    (board.planOrigins.values.filter (originExpired now)).length)

/-! ## Operations -/

/-- The body of an operation: the board that it leaves, and how it ends. -/
abbrev Body := Board × Ending

structure RegisterInput where
  requirementId : JsString
  messageGroupId : JsString
  source : SourceInput
  knowledgeMatches : List KnowledgeMatchInput := []

/-- The requirement that `registerMessageGroup` makes. -/
def newRequirement (functions : Functions) (clock : Clock) (input : RegisterInput) (source : Source) : Requirement :=
  let replyPolicy := messageReplyPolicy source
  let knowledgeMatches := normalizeKnowledgeMatches input.knowledgeMatches
  { id := input.requirementId
    dedupeKey := messageSourceDedupeKey functions source
    kind := .message_reply
    replyPolicy
    status := .pending_dispatch
    source
    factAssessmentRequired := true
    knowledgeMatches
    knowledgeCallbackDueAt :=
      if knowledgeMatches.isEmpty then none else some (clock.reading 2 + knowledgeCallbackDueMs)
    messageGroupId := some input.messageGroupId
    createdAt := clock.reading 1
    updatedAt := clock.reading 1
    dueAt := clock.reading 3 + if replyPolicy = .required then requiredDueMs else decisionDueMs }

def registerMessageGroup (functions : Functions) (clock : Clock) (input : RegisterInput) (board : Board) : Body :=
  match board.requirements.get? input.requirementId with
  | some existing => (board, .returns (.existing existing))
  | none =>
    match normalizeSource input.source with
    | none => (board, .throws (js "Invalid message-processing source."))
    | some source =>
      if (JsString.trim input.messageGroupId).isEmpty then (board, .throws (js "Missing messageGroupId."))
      else
        let dedupeKey := messageSourceDedupeKey functions source
        match board.requirements.values.find? fun requirement ↦
            requirement.kind = .message_reply && requirement.dedupeKey = dedupeKey with
        | some duplicate => (board, .returns (.existing duplicate))
        | none =>
          if (board.dedupeRecords.get? dedupeKey).any fun expiresAt ↦ clock.reading 0 < expiresAt then
            (board, .returns (.replay_suppressed dedupeKey))
          else
            let requirement := newRequirement functions clock input source
            ({ board with requirements := board.requirements.set requirement.id requirement },
              .persists (.created requirement))

/-- How a change of one requirement ends; `persists` may bring the origin of a plan. -/
inductive Change where
  | returns
  | persists (origin : Option PlanOrigin := none)
  | throws (message : JsString)

/-- An operation on the requirement `requirementId`.  The requirement is changed in place, also when
the operation throws. -/
def changeRequirement (requirementId : JsString) (change : Requirement → Requirement × Change) (board : Board) :
    Body :=
  match board.requirements.get? requirementId with
  | none => (board, .throws (js "Message processing requirement not found: " ++ requirementId))
  | some requirement =>
    let (requirement, ending) := change requirement
    let board := { board with requirements := board.requirements.set requirementId requirement }
    match ending with
    | .returns => (board, .returns (.requirement (some requirement)))
    | .persists none => (board, .persists (.requirement (some requirement)))
    | .persists (some origin) =>
      ({ board with planOrigins := board.planOrigins.set origin.key origin },
        .persists (.requirement (some requirement)))
    | .throws message => (board, .throws message)

def invalidWorker : JsString := js "Invalid message-processing worker."

def recordDispatch (clock : Clock) (worker : WorkerInput) (requirement : Requirement) : Requirement × Change :=
  match normalizedWorker worker with
  | none => (requirement, .throws invalidWorker)
  | some worker =>
    ({ requirement with
        worker := some worker, status := .processing, lastError := none, updatedAt := clock.reading 0 }, .persists)

def recordWorkerReference (clock : Clock) (worker : WorkerInput) (requirement : Requirement) :
    Requirement × Change :=
  match normalizedWorker worker with
  | none => (requirement, .throws invalidWorker)
  | some worker => ({ requirement with worker := some worker, updatedAt := clock.reading 0 }, .persists)

def replaceWorkerReferences (clock : Clock) (previousThreadId : JsString) (worker : WorkerInput) (board : Board) :
    Body :=
  match normalizedWorker worker with
  | none => (board, .throws invalidWorker)
  | some worker =>
    let refers (previous : Option Worker) : Bool := previous.any fun previous ↦ previous.threadId = previousThreadId
    let requirements := (board.requirements.values.filter fun requirement ↦ refers requirement.worker).length
    let planOrigins := (board.planOrigins.values.filter fun origin ↦ refers origin.worker).length
    let board := { board with
      requirements := board.requirements.mapValues fun requirement ↦
        if refers requirement.worker then
          { requirement with worker := some worker, updatedAt := clock.reading 0 }
        else requirement
      planOrigins := board.planOrigins.mapValues fun origin ↦
        if refers origin.worker then { origin with worker := some worker } else origin }
    let result : Result := .replaced requirements planOrigins
    (board, if 0 < requirements || 0 < planOrigins then .persists result else .returns result)

def recordDispatchFailure (clock : Clock) (error : Option JsString) (requirement : Requirement) :
    Requirement × Change :=
  ({ requirement with
      status := .send_failed
      lastError := (cleanText 4000 error).or (some (js "消息没有成功交给处理 Agent。"))
      updatedAt := clock.reading 0 }, .persists)

def recordHandoffReturned (clock : Clock) (returnedByThreadId : Option JsString) (requirement : Requirement) :
    Requirement × Change :=
  match requirement.handoff with
  | none =>
    (requirement, .throws (js "Message processing requirement has no handoff: " ++ requirement.id))
  | some handoff =>
    match cleanText 100 handoff.targetThreadId, cleanText 100 returnedByThreadId with
    | some targetThreadId, some returnedBy =>
      if targetThreadId ≠ returnedBy then
        (requirement,
          .throws (js "Message processing handoff result must be returned by the recorded target task."))
      else (returned handoff, .persists)
    | _, _ => (returned handoff, .persists)
where
  returned (handoff : Handoff) : Requirement :=
    { requirement with
      handoff := some { handoff with returnedAt := some (clock.reading 0) }
      status := .processing
      lastError := none
      updatedAt := clock.reading 0 }

/-! ### Outcomes -/

/-- The requirement takes over an assessment of its facts. -/
def assess (assessment : Option ProjectFactAssessment) (requirement : Requirement) : Requirement :=
  match assessment with
  | none => requirement
  | some assessment =>
    { requirement with
      projectFactAssessment := some assessment
      criticalFacts := if assessment.status = .critical then assessment.facts else [] }

/-- The sent requirement is closed. -/
def closeSent (clock : Clock) (disposition : Option CriticalProjectFactDisposition) (requirement : Requirement) :
    Requirement :=
  { requirement with
    criticalFactDisposition := disposition.or requirement.criticalFactDisposition
    status := .sent
    updatedAt := clock.reading 0
    lastError := none }

/-- `linkPlan`: the origin of the plan, or the error. -/
def linkPlan (clock : Clock) (input : OutcomeInput) (requirement : Requirement) : Except JsString PlanOrigin :=
  match (cleanText 200 input.roleId).or requirement.source.roleId, cleanText 300 input.planId with
  | some roleId, some planId =>
    .ok {
      key := roleId ++ js ":" ++ planId ++ js ":" ++ requirement.id
      roleId
      planId
      planTitle := cleanText 500 input.planTitle
      sourceRequirementId := requirement.id
      source := requirement.source
      worker := requirement.worker
      linkedAt := clock.reading 1 }
  | _, _ => .error (js "Linking a plan to a message requires roleId and planId.")

/-- The checks of a silence. -/
def checkSilence (reasonCode : SilenceReason) (input : OutcomeInput) (requirement : Requirement) :
    Except JsString Unit := do
  let reason := (cleanText 2000 input.reason).getD []
  refuseIf (requirement.replyPolicy = .required && decide (reasonCode ∉ allowedRequiredSilenceReasons))
    (js ("This message requires a visible reply. no_reply is allowed only for closing-only, duplicate, self, " ++
      "already-answered, withdrawn, superseded-by-followup, or invalid-source messages."))
  refuseIf (reasonCode = .superseded_by_followup && !reasonContainsNamedMessageReference reason)
    (js "superseded_by_followup requires a concrete follow-up messageId or sentMessageId in reason.")
  refuseIf (reasonCode = .attachment_consumed && !attachmentOnly (requirement.source.summary.getD []))
    (js "attachment_consumed is allowed only for an attachment-only source message.")
  refuseIf (reasonCode = .attachment_consumed && ((input.planId.getD []).isEmpty ||
      !reasonContainsSourceMessageId reason requirement.source.messageIds))
    (js "attachment_consumed requires planId and the source messageId in reason.")

/-- The decision of an outcome for a requirement that is not sent. -/
def decideOutcome (clock : Clock) (input : OutcomeInput) (requirement : Requirement) : Except JsString Requirement :=
  let decision (reasonCode : Option SilenceReason) : Decision :=
    { type := input.decision, reasonCode, reason := cleanText 2000 input.reason, decidedAt := clock.reading 0,
      decidedByThreadId := cleanText 100 input.decidedByThreadId }
  match input.decision with
  | .no_reply =>
    let reasonCode := input.reasonCode.getD .agent_judgement
    (checkSilence reasonCode input requirement).map fun _ ↦
      { requirement with status := .not_required, decision := some (decision (some reasonCode)) }
  | .handoff =>
    match cleanText 80 input.targetAgentType with
    | none => .error (js "handoff requires targetAgentType.")
    | some targetAgentType =>
      .ok { requirement with
        status := .handed_off
        decision := some (decision none)
        handoff := some {
          targetAgentType
          targetThreadId := cleanText 100 input.targetThreadId
          targetThreadName := cleanText 300 input.targetThreadName
          acceptedAt := clock.reading 0 } }
  | .reply => .ok { requirement with status := .awaiting_send, decision := some (decision none) }

/-- `submitOutcome` once the checks have answered. -/
def applyOutcome (clock : Clock) (input : OutcomeInput) (disposition : Option CriticalProjectFactDisposition)
    (requirement : Requirement) : Requirement × Change :=
  if requirement.status = .sent then (closeSent clock disposition requirement, .persists)
  else if requirement.status = .fact_assessment_pending || requirement.status = .fact_record_pending then
    match requirement.projectFactAssessment with
    | none => (requirement, .throws (js "The sent message still requires projectFactAssessment."))
    | some assessment =>
      if assessment.status = .critical && disposition.isNone then
        (requirement, .throws (js "The sent message still requires a verified criticalFactDisposition."))
      else (closeSent clock disposition requirement, .persists)
  else
    match decideOutcome clock input requirement with
    | .error message => (requirement, .throws message)
    | .ok decided =>
      let requirement := { decided with
        lastError := none
        criticalFactDisposition := disposition.or decided.criticalFactDisposition
        updatedAt := clock.reading 0 }
      if (input.planId.getD []).isEmpty then (requirement, .persists)
      else
        match linkPlan clock input requirement with
        | .error message => (requirement, .throws message)
        | .ok origin => (requirement, .persists (some origin))

/-- Each check is followed at once by what the requirement takes over from it. -/
def submitOutcome (clock : Clock) (input : OutcomeInput) (requirement : Requirement) : Requirement × Change :=
  if requirement.status = .sent && input.projectFactAssessment.isNone && input.criticalFactDisposition.isNone then
    (requirement, .returns)
  else
    match validateSourceEvidenceReview requirement input with
    | .error message => (requirement, .throws message)
    | .ok review =>
      let requirement :=
        { requirement with sourceEvidenceReview := review.or requirement.sourceEvidenceReview }
      match validateProjectFactAssessment requirement input with
      | .error message => (requirement, .throws message)
      | .ok assessment =>
        let requirement := assess assessment requirement
        match validateKnowledgeMatchDispositions requirement input with
        | .error message => (requirement, .throws message)
        | .ok dispositions =>
          let requirement :=
            { requirement with
              knowledgeMatchDispositions := dispositions.getD requirement.knowledgeMatchDispositions }
          match validateCriticalFactDisposition requirement input with
          | .error message => (requirement, .throws message)
          | .ok disposition => applyOutcome clock input disposition requirement

/-! ### Deliveries -/

structure SendResult where
  status : DeliveryStatus
  channel : Option JsString := none
  sentMessageId : Option JsString := none
  sentFileId : Option JsString := none
  sentFileName : Option JsString := none
  reason : Option JsString := none

/-- The status after a delivery: a sent message may still lack its assessment or the record of its
facts. -/
def statusAfterDelivery (status : DeliveryStatus) (requirement : Requirement) : RequirementStatus :=
  match status with
  | .sent =>
    if requirement.factAssessmentRequired && requirement.projectFactAssessment.isNone then .fact_assessment_pending
    else if !requirement.criticalFacts.isEmpty && requirement.criticalFactDisposition.isNone then
      .fact_record_pending
    else .sent
  | .draft => .awaiting_approval
  | .blocked | .failed => .send_failed

def deliveryError (result : SendResult) : Option JsString :=
  match result.status with
  | .failed | .blocked =>
    (cleanText 4000 result.reason).or (some (js "Outbox " ++ result.status.text ++ js "."))
  | _ => none

def recordReply (clock : Clock) (result : SendResult) (deliveryId : Option JsString) (requirement : Requirement) :
    Requirement × Change :=
  ({ requirement with
      delivery := some {
        deliveryId := cleanText 300 deliveryId
        status := result.status
        sentMessageId := cleanText 300 result.sentMessageId
        reason := cleanText 2000 result.reason
        updatedAt := clock.reading 0 }
      status := statusAfterDelivery result.status requirement
      lastError := deliveryError result
      updatedAt := clock.reading 0 }, .persists)

/-- The channel on which the source expects its answer. -/
def expectedChannel (functions : Functions) (source : Source) : JsString :=
  let endpoint := functions.toLowerCase (JsString.trim source.endpoint)
  if endpoint = js "qq" then js "napcat"
  else if endpoint = js "rolepanel" then js "role_panel"
  else if endpoint = js "planfeedback" then js "plan_feedback"
  else endpoint.takeWhile fun u ↦ u ≠ 58

def isText (value : Option JsString) : Bool := !(value.getD []).isEmpty

def recordSend (functions : Functions) (clock : Clock) (result : SendResult) (deliveryId : Option JsString)
    (requirement : Requirement) : Requirement × Change :=
  let expected := expectedChannel functions requirement.source
  let channelMatches := isText result.channel && result.channel = some expected
  let hasChannelReceipt := result.channel ≠ some (js "napcat") || isText result.sentMessageId ||
    isText result.sentFileId || isText result.sentFileName
  let unreceived := result.status = .sent && (!channelMatches || !hasChannelReceipt)
  ({ requirement with
      delivery := some {
        deliveryId := cleanText 300 deliveryId
        status := result.status
        channel := cleanText 80 result.channel
        sentMessageId := cleanText 300 result.sentMessageId
        sentFileId := cleanText 300 result.sentFileId
        sentFileName := cleanText 500 result.sentFileName
        reason := cleanText 2000 result.reason
        updatedAt := clock.reading 0 }
      status := if unreceived then .awaiting_send else statusAfterDelivery result.status requirement
      lastError :=
        if unreceived then
          some (if !channelMatches then
            js "The send reached channel " ++ orText result.channel (js "unknown") ++
              js ", but this requirement expects " ++ expected ++ js "."
          else js "NapCat reported sent without a QQ message or file receipt.")
        else deliveryError result
      updatedAt := clock.reading 0 }, .persists)

/-! ### Recalled knowledge -/

def knowledgeTypeText (type : Option KnowledgeType) : JsString :=
  match type with
  | some type => type.text
  | none => js "undefined"

def checkCallback (callback : KnowledgeMatchCallback) : Except JsString Unit := do
  refuseIf ((callback.result = .updated || callback.result = .created) && (callback.recordType.isNone ||
      callback.recordId.isNone || callback.verifiedAt.isNone))
    (callback.result.text ++ js " knowledge callback requires recordType, recordId, and verifiedAt.")
  let expectedType : RecordType := if callback.knowledgeType = .plan then .plan else .memory
  refuseIf (callback.result = .updated && callback.recordType ≠ some expectedType)
    (js "updated callback for " ++ callback.knowledgeType.text ++ js " requires recordType=" ++
      (if expectedType = .plan then js "plan" else js "memory") ++ js ".")
  refuseIf (callback.result = .created && callback.recordType.isNone)
    (js "created knowledge callback requires recordType.")
  refuseIf (callback.result = .not_relevant && callback.responseAction ≠ .none)
    (js "not_relevant knowledge callback must use responseAction=none.")

/-- The callback takes the place of the one for the same item, or goes to the end. -/
def putCallback (callback : KnowledgeMatchCallback) : List KnowledgeMatchCallback → List KnowledgeMatchCallback
  | [] => [callback]
  | item :: items =>
    if item.knowledgeId = callback.knowledgeId && item.knowledgeType = callback.knowledgeType then callback :: items
    else item :: putCallback callback items

def recordKnowledgeCallback (functions : Functions) (clock : Clock) (input : KnowledgeCallbackInput)
    (requirement : Requirement) : Requirement × Change :=
  if !requirement.knowledgeMatches.any fun item ↦
      some item.id = input.knowledgeId && some item.type = input.knowledgeType then
    (requirement, .throws (js "Knowledge callback does not match a recalled plan or memory: " ++
      knowledgeTypeText input.knowledgeType ++ js ":" ++ input.knowledgeId.getD (js "undefined")))
  else
    let callbackAt := orText input.callbackAt (functions.toISOString (clock.reading 0))
    match normalizeKnowledgeCallbacks [{ input with callbackAt := some callbackAt }] with
    | [] => (requirement, .throws (js ("Invalid knowledge callback. result, responseAction, evidence, and " ++
        "callback identity are required.")))
    | callback :: _ =>
      match checkCallback callback with
      | .error message => (requirement, .throws message)
      | .ok _ =>
        ({ requirement with
            knowledgeCallbacks := putCallback callback requirement.knowledgeCallbacks
            updatedAt := clock.reading 1
            lastError := none }, .persists)

def recordKnowledgeReminder (clock : Clock) (requirement : Requirement) : Requirement × Change :=
  ({ requirement with
      lastKnowledgeReminderAt := some (clock.reading 0)
      knowledgeCallbackDueAt := some (clock.reading 1 + knowledgeCallbackDueMs)
      updatedAt := clock.reading 0 }, .persists)

/-! ### Plans -/

def observed (plan : PlanItem) (origin : PlanOrigin) : PlanOrigin :=
  { origin with
    lastObservedPlanUpdatedAt := some plan.updatedAt
    lastPlan := some (planSnapshot plan)
    planTitle := some plan.title }

/-- The origin has observed the plan; the changes become a requirement, unless there is one already. -/
def announcePlanChange (clock : Clock) (uuid : JsString) (origin : PlanOrigin) (beforeUpdatedAt : Option JsString)
    (plan : PlanItem) (changes : List JsString) (board : Board) : Body :=
  let board := { board with planOrigins := board.planOrigins.set origin.key (observed plan origin) }
  if changes.isEmpty then (board, .persists (.requirement none))
  else
    let dedupeKey := js "plan-progress:" ++ origin.key ++ js ":" ++ plan.updatedAt
    match board.requirements.values.find? fun item ↦ item.dedupeKey = dedupeKey with
    | some existing => (board, .returns (.requirement (some existing)))
    | none =>
      let requirement : Requirement :=
        { id := js "message-requirement-" ++ uuid
          dedupeKey
          kind := .plan_progress_notification
          replyPolicy := .required
          status := .pending_dispatch
          source := origin.source
          plan := some {
            planId := plan.id, planTitle := plan.title, beforeUpdatedAt, afterUpdatedAt := plan.updatedAt, changes }
          worker := origin.worker
          createdAt := clock.reading 0
          updatedAt := clock.reading 0
          dueAt := clock.reading 1 + requiredDueMs }
      ({ board with requirements := board.requirements.set requirement.id requirement },
        .persists (.requirement (some requirement)))

/-- The origin of the plan that was linked last. -/
def latestOrigin (roleId planId : JsString) (board : Board) : Option PlanOrigin :=
  ((board.planOrigins.values.filter fun item ↦ item.roleId = roleId && item.planId = planId).mergeSort
    fun left right ↦ decide (right.linkedAt ≤ left.linkedAt)).head?

def registerPlanChange (clock : Clock) (uuid roleId : JsString) (before after : PlanItem) (board : Board) : Body :=
  match latestOrigin roleId after.id board with
  | none => (board, .returns (.requirement none))
  | some origin =>
    announcePlanChange clock uuid origin (some before.updatedAt) after
      (describePlanCommunicationChanges before after) board

def setPlanBaseline (roleId : JsString) (plan : PlanItem) (board : Board) : Body :=
  let isOrigin (item : PlanOrigin) : Bool := item.roleId = roleId && item.planId = plan.id
  if board.planOrigins.values.any isOrigin then
    ({ board with
        planOrigins := board.planOrigins.mapValues fun item ↦ if isOrigin item then observed plan item else item },
      .persists .done)
  else (board, .returns .done)

def reconcilePlan (clock : Clock) (uuid originKey : JsString) (plan : PlanItem) (board : Board) : Body :=
  match board.planOrigins.get? originKey with
  | none => (board, .returns (.requirement none))
  | some origin =>
    if origin.lastObservedPlanUpdatedAt = some plan.updatedAt then (board, .returns (.requirement none))
    else
      let changes := match origin.lastPlan with
        | some lastPlan => describePlanSnapshotChanges lastPlan plan
        | none =>
          [js "计划已更新：" ++ orText origin.lastObservedPlanUpdatedAt (js "未知时间") ++ js " → " ++ plan.updatedAt]
      announcePlanChange clock uuid origin origin.lastObservedPlanUpdatedAt plan changes board

/-! ### Pruning and construction -/

def pruneExpired (clock : Clock) (board : Board) : Body :=
  let (requirements, planOrigins) := prunedCounts (clock.reading 0) board
  let result : Result := .pruned requirements planOrigins
  (pruneExpiredState (clock.reading 0) board,
    if 0 < requirements || 0 < planOrigins then .persists result else .returns result)

/-- A requirement that was read, with the key of its source. -/
def loadRequirement (functions : Functions) (item : Requirement) : Option Requirement :=
  (normalizeRequirement item).map fun requirement ↦
    if requirement.kind = .message_reply then
      { requirement with dedupeKey := messageSourceDedupeKey functions requirement.source }
    else requirement

/-- `normalizeDedupeRecord` -/
def loadDedupeRecord (record : JsString × Time) : Option (JsString × Time) :=
  (cleanText 128 (some record.1)).bind fun key ↦ if isDedupeKey key then some (key, record.2) else none

def loadBoard (functions : Functions) (persisted : Board) : Board where
  requirements := InsertionMap.empty.setAll
    ((persisted.requirements.values.filterMap (loadRequirement functions)).map fun requirement ↦
      (requirement.id, requirement))
  planOrigins := InsertionMap.empty.setAll
    ((persisted.planOrigins.values.filterMap normalizePlanOrigin).map fun origin ↦ (origin.key, origin))
  dedupeRecords := InsertionMap.empty.setAll (persisted.dedupeRecords.entries.filterMap loadDedupeRecord)

/-- Whether a requirement gets another key than the one that was written. -/
def migratesKeys (functions : Functions) (persisted : Board) : Bool :=
  persisted.requirements.values.any fun item ↦
    (loadRequirement functions item).any fun requirement ↦ requirement.dedupeKey ≠ item.dedupeKey

/-- The constructor, on what the state file holds. -/
def construct (functions : Functions) (clock : Clock) (persisted : Option Board) : Body :=
  let board := match persisted with
    | some persisted => loadBoard functions persisted
    | none => {}
  let (requirements, planOrigins) := prunedCounts (clock.reading 0) board
  (pruneExpiredState (clock.reading 0) board,
    if persisted.any (migratesKeys functions) || 0 < requirements || 0 < planOrigins then .persists .done
    else .returns .done)

/-! ## The system -/

inductive Operation where
  | registerMessageGroup (input : RegisterInput)
  | recordDispatch (requirementId : JsString) (worker : WorkerInput)
  | recordWorkerReference (requirementId : JsString) (worker : WorkerInput)
  | replaceWorkerReferences (previousThreadId : JsString) (worker : WorkerInput)
  | recordDispatchFailure (requirementId : JsString) (error : Option JsString)
  | recordHandoffReturned (requirementId : JsString) (returnedByThreadId : Option JsString)
  | submitOutcome (requirementId : JsString) (input : OutcomeInput)
  | recordReply (requirementId : JsString) (result : SendResult) (deliveryId : Option JsString)
  | recordSend (requirementId : JsString) (result : SendResult) (deliveryId : Option JsString)
  | recordKnowledgeCallback (requirementId : JsString) (input : KnowledgeCallbackInput)
  | recordKnowledgeReminder (requirementId : JsString)
  | registerPlanChange (uuid roleId : JsString) (before after : PlanItem)
  | setPlanBaseline (roleId : JsString) (plan : PlanItem)
  | reconcilePlan (uuid originKey : JsString) (plan : PlanItem)
  | pruneExpired

def body (functions : Functions) (clock : Clock) : Operation → Board → Body
  | .registerMessageGroup input => MessageProcessing.registerMessageGroup functions clock input
  | .recordDispatch id worker => changeRequirement id (MessageProcessing.recordDispatch clock worker)
  | .recordWorkerReference id worker => changeRequirement id (MessageProcessing.recordWorkerReference clock worker)
  | .replaceWorkerReferences previous worker => MessageProcessing.replaceWorkerReferences clock previous worker
  | .recordDispatchFailure id error => changeRequirement id (MessageProcessing.recordDispatchFailure clock error)
  | .recordHandoffReturned id returnedBy =>
    changeRequirement id (MessageProcessing.recordHandoffReturned clock returnedBy)
  | .submitOutcome id input => changeRequirement id (MessageProcessing.submitOutcome clock input)
  | .recordReply id result deliveryId => changeRequirement id (MessageProcessing.recordReply clock result deliveryId)
  | .recordSend id result deliveryId =>
    changeRequirement id (MessageProcessing.recordSend functions clock result deliveryId)
  | .recordKnowledgeCallback id input =>
    changeRequirement id (MessageProcessing.recordKnowledgeCallback functions clock input)
  | .recordKnowledgeReminder id => changeRequirement id (MessageProcessing.recordKnowledgeReminder clock)
  | .registerPlanChange uuid roleId before after => MessageProcessing.registerPlanChange clock uuid roleId before after
  | .setPlanBaseline roleId plan => MessageProcessing.setPlanBaseline roleId plan
  | .reconcilePlan uuid originKey plan => MessageProcessing.reconcilePlan clock uuid originKey plan
  | .pruneExpired => MessageProcessing.pruneExpired clock

/-- `persisted` is what the state file holds, `now` a time that no later reading precedes.  `created` is
a history: the sources for which `registerMessageGroup` has answered `created`, with the times. -/
structure Store where
  board : Board := {}
  persisted : Option Board := none
  now : Time := 0
  created : List (SourceInput × Time) := []

/-- `none` when the write succeeds, else the error that it throws. -/
abbrev Write := Option JsString

/-- The end of an operation: `persist` prunes the board and writes it. -/
def Store.finish (store : Store) (clock : Clock) (write : Write) (result : Body) :
    Except JsString Result × Store :=
  let store := { store with now := clock.reading 6 }
  match result.2 with
  | .returns answer => (.ok answer, { store with board := result.1 })
  | .throws message => (.error message, { store with board := result.1 })
  | .persists answer =>
    let board := pruneExpiredState (clock.reading 5) result.1
    match write with
    | some message => (.error message, { store with board })
    | none => (.ok answer, { store with board, persisted := some board })

/-- An operation, or a restart that constructs the board again. -/
inductive Event where
  | call (operation : Operation) (clock : Clock) (write : Write)
  | restart (clock : Clock) (write : Write)

def Event.clock : Event → Clock
  | .call _ clock _ | .restart clock _ => clock

/-- `randomUUID` answers an id that no requirement has. -/
def freshUuid (operation : Operation) (board : Board) : Bool :=
  match operation with
  | .registerPlanChange uuid _ _ _ | .reconcilePlan uuid _ _ =>
    (board.requirements.get? (js "message-requirement-" ++ uuid)).isNone
  | _ => true

/-- What the history records of an operation. -/
def created (operation : Operation) (answer : Except JsString Result) : List (SourceInput × Time) :=
  match operation, answer with
  | .registerMessageGroup input, .ok (.created requirement) => [(input.source, requirement.createdAt)]
  | _, _ => []

def step (functions : Functions) (e : Event) (s : Store) : Option (Except JsString Result × Store) :=
  if e.clock.reading 0 < s.now then none
  else
    match e with
    | .call operation clock write =>
      if freshUuid operation s.board then
        let (answer, store) := s.finish clock write (body functions clock operation s.board)
        some (answer, { store with created := s.created ++ created operation answer })
      else none
    | .restart clock write =>
      match s.finish clock write (construct functions clock s.persisted) with
      | (.ok answer, store) => some (.ok answer, store)
      -- the constructor throws, and there is no board
      | (.error _, _) => none

def system (functions : Functions) : System Store Event (Except JsString Result) := ⟨step functions⟩

end RabiRoute.MessageProcessing
