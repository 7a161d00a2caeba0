import RabiRoute.Shared.CleanText

/-!
# Requirements of the message board

The records of `messageProcessing/board.ts` and the functions that normalise them.  What a caller
sends has a type of its own, in which a field may be missing and a value of an enumeration may be
none of its names; a record that the board has written is read back in that form.
-/

namespace RabiRoute.MessageProcessing

/-- A time in milliseconds; the board writes it as an ISO text. -/
abbrev Time := Nat

def requiredDueMs : Nat := 10 * 60 * 1000
def decisionDueMs : Nat := 30 * 60 * 1000
def knowledgeCallbackDueMs : Nat := 60 * 60 * 1000
def requirementRetention : Nat := 24 * 60 * 60 * 1000
def transientResultRetentionMs : Nat := 15 * 60 * 1000
def dedupeRetentionMs : Nat := 7 * 24 * 60 * 60 * 1000
def planOriginRetentionMs : Nat := 7 * 24 * 60 * 60 * 1000

inductive RequirementKind where
  | message_reply
  | plan_progress_notification
deriving DecidableEq

inductive ReplyPolicy where
  | required
  | agent_decides
deriving DecidableEq

inductive RequirementStatus where
  | pending_dispatch
  | processing
  | handed_off
  | awaiting_send
  | awaiting_approval
  | fact_assessment_pending
  | fact_record_pending
  | sent
  | not_required
  | send_failed
deriving DecidableEq

/-! ## Project facts -/

inductive CriticalProjectFactKind where
  | schedule
  | scope
  | approval
  | ownership
  | release
deriving DecidableEq

structure CriticalProjectFactSignal where
  kind : CriticalProjectFactKind
  evidence : JsString
deriving DecidableEq

structure CriticalProjectFactInput where
  kind : Option CriticalProjectFactKind
  evidence : Option JsString

def CriticalProjectFactSignal.toInput (signal : CriticalProjectFactSignal) : CriticalProjectFactInput :=
  ⟨some signal.kind, some signal.evidence⟩

def normalizeCriticalFacts (value : List CriticalProjectFactInput) : List CriticalProjectFactSignal :=
  value.filterMap fun candidate ↦
    match candidate.kind, cleanText 4000 candidate.evidence with
    | some kind, some evidence => some { kind, evidence }
    | _, _ => none

inductive AssessmentStatus where
  | «none»
  | critical
deriving DecidableEq

/-- An empty list of facts stands for no facts. -/
structure ProjectFactAssessment where
  status : AssessmentStatus
  reviewedMessageIds : List JsString
  replyChainChecked : Bool
  evidence : JsString
  assessedAt : JsString
  assessedByThreadId : Option JsString
  facts : List CriticalProjectFactSignal
deriving DecidableEq

structure ProjectFactAssessmentInput where
  status : Option AssessmentStatus
  reviewedMessageIds : List JsString
  replyChainChecked : Bool
  evidence : Option JsString
  assessedAt : Option JsString
  assessedByThreadId : Option JsString
  facts : List CriticalProjectFactInput

def ProjectFactAssessment.toInput (item : ProjectFactAssessment) : ProjectFactAssessmentInput :=
  ⟨some item.status, item.reviewedMessageIds, item.replyChainChecked, some item.evidence, some item.assessedAt,
    item.assessedByThreadId, item.facts.map CriticalProjectFactSignal.toInput⟩

def normalizeProjectFactAssessment (value : Option ProjectFactAssessmentInput) : Option ProjectFactAssessment := do
  let item ← value
  let status ← item.status
  return {
    status
    reviewedMessageIds := stringList 100 item.reviewedMessageIds
    replyChainChecked := item.replyChainChecked
    evidence := (cleanText 4000 item.evidence).getD []
    assessedAt := (cleanText 100 item.assessedAt).getD []
    assessedByThreadId := cleanText 100 item.assessedByThreadId
    facts := normalizeCriticalFacts item.facts }

inductive CriticalProjectFactRecordReference where
  | plan (planId : JsString)
  | memory (memoryId : JsString)
  | document (relativePath : JsString)
deriving DecidableEq

inductive DispositionStatus where
  | recorded
  | duplicate
  | not_applicable
deriving DecidableEq

structure CriticalProjectFactDisposition where
  status : DispositionStatus
  record : Option CriticalProjectFactRecordReference
  evidence : Option JsString
  verifiedAt : Option JsString
deriving DecidableEq

/-- The kind of record that a reference names. -/
inductive FactRecordType where
  | plan
  | memory
  | document

structure FactRecordInput where
  type : Option FactRecordType
  planId : Option JsString
  memoryId : Option JsString
  relativePath : Option JsString

/-- `recordType` and `recordId` are the older form of the reference. -/
structure CriticalFactDispositionInput where
  status : Option DispositionStatus
  record : Option FactRecordInput
  recordType : Option FactRecordType
  recordId : Option JsString
  evidence : Option JsString
  verifiedAt : Option JsString

def CriticalProjectFactRecordReference.toInput : CriticalProjectFactRecordReference → FactRecordInput
  | .plan planId => ⟨some .plan, some planId, none, none⟩
  | .memory memoryId => ⟨some .memory, none, some memoryId, none⟩
  | .document relativePath => ⟨some .document, none, none, some relativePath⟩

def CriticalProjectFactDisposition.toInput (item : CriticalProjectFactDisposition) :
    CriticalFactDispositionInput :=
  ⟨some item.status, item.record.map CriticalProjectFactRecordReference.toInput, none, none, item.evidence,
    item.verifiedAt⟩

/-- The reference of a type, with the first text that is there. -/
def factRecord (type : Option FactRecordType) (planId memoryId relativePath : Option JsString) :
    Option CriticalProjectFactRecordReference :=
  match type with
  | some .plan => (cleanText 500 planId).map .plan
  | some .memory => (cleanText 500 memoryId).map .memory
  | some .document => (cleanText 500 relativePath).map .document
  | none => none

def normalizeCriticalFactDisposition (value : Option CriticalFactDispositionInput) :
    Option CriticalProjectFactDisposition := do
  let item ← value
  let status ← item.status
  return {
    status
    record := (item.record.bind fun raw ↦ factRecord raw.type raw.planId raw.memoryId raw.relativePath).or
      (factRecord item.recordType item.recordId item.recordId item.recordId)
    evidence := cleanText 2000 item.evidence
    verifiedAt := cleanText 100 item.verifiedAt }

/-! ## Evidence of the source -/

inductive ReviewStatus where
  | reviewed
  | unavailable
deriving DecidableEq

structure MessageSourceAttachmentReview where
  attachmentId : JsString
  status : ReviewStatus
  observation : JsString
deriving DecidableEq

structure AttachmentReviewInput where
  attachmentId : Option JsString
  status : Option ReviewStatus
  observation : Option JsString

structure MessageSourceEvidenceReview where
  reviewedMessageIds : List JsString
  replyChainChecked : Bool
  attachmentReviews : List MessageSourceAttachmentReview
  evidence : JsString
  reviewedAt : JsString
  reviewedByThreadId : Option JsString
deriving DecidableEq

structure SourceEvidenceReviewInput where
  reviewedMessageIds : List JsString
  replyChainChecked : Bool
  attachmentReviews : List AttachmentReviewInput
  evidence : Option JsString
  reviewedAt : Option JsString
  reviewedByThreadId : Option JsString

def normalizeSourceAttachmentReviews (value : List AttachmentReviewInput) : List MessageSourceAttachmentReview :=
  value.filterMap fun item ↦
    match cleanText 300 item.attachmentId, cleanText 2000 item.observation, item.status with
    | some attachmentId, some observation, some status => some { attachmentId, status, observation }
    | _, _, _ => none

def normalizeSourceEvidenceReview (value : Option SourceEvidenceReviewInput) : Option MessageSourceEvidenceReview :=
  value.map fun item ↦ {
    reviewedMessageIds := stringList 200 item.reviewedMessageIds
    replyChainChecked := item.replyChainChecked
    attachmentReviews := normalizeSourceAttachmentReviews item.attachmentReviews
    evidence := (cleanText 4000 item.evidence).getD []
    reviewedAt := (cleanText 100 item.reviewedAt).getD []
    reviewedByThreadId := cleanText 100 item.reviewedByThreadId }

/-! ## Recalled knowledge -/

inductive KnowledgeType where
  | plan
  | recent_memory
  | consolidated_memory
deriving DecidableEq

/-- The name in a text such as `plan:id`. -/
def KnowledgeType.text : KnowledgeType → JsString
  | .plan => js "plan"
  | .recent_memory => js "recent_memory"
  | .consolidated_memory => js "consolidated_memory"

structure KnowledgeRecallMatch where
  id : JsString
  title : JsString
  type : KnowledgeType
  endpoint : JsString
  score : Rat
  revisionAt : JsString
deriving DecidableEq

/-- `score` is `none` when it is not a finite number. -/
structure KnowledgeMatchInput where
  id : Option JsString
  title : Option JsString
  type : Option KnowledgeType
  endpoint : Option JsString
  score : Option Rat
  revisionAt : Option JsString

def KnowledgeRecallMatch.toInput (item : KnowledgeRecallMatch) : KnowledgeMatchInput :=
  ⟨some item.id, some item.title, some item.type, some item.endpoint, some item.score, some item.revisionAt⟩

def normalizeKnowledgeMatches (value : List KnowledgeMatchInput) : List KnowledgeRecallMatch :=
  value.filterMap fun item ↦ do
    let id ← cleanText 500 item.id
    let title ← cleanText 1000 item.title
    let endpoint ← cleanText 2000 item.endpoint
    let revisionAt ← cleanText 100 item.revisionAt
    let score ← item.score
    let type ← item.type
    return { id, title, type, endpoint, score, revisionAt }

inductive KnowledgeHandlingActionType where
  | reply
  | discuss
  | update_plan
  | update_memory
  | create_plan
  | create_memory
  | handoff
  | no_action
deriving DecidableEq

def KnowledgeHandlingActionType.text : KnowledgeHandlingActionType → JsString
  | .reply => js "reply"
  | .discuss => js "discuss"
  | .update_plan => js "update_plan"
  | .update_memory => js "update_memory"
  | .create_plan => js "create_plan"
  | .create_memory => js "create_memory"
  | .handoff => js "handoff"
  | .no_action => js "no_action"

inductive RecordType where
  | plan
  | memory
deriving DecidableEq

structure KnowledgeHandlingAction where
  type : KnowledgeHandlingActionType
  recordType : Option RecordType
  recordId : Option JsString
  evidence : JsString
  verifiedAt : Option JsString
deriving DecidableEq

structure KnowledgeActionInput where
  type : Option KnowledgeHandlingActionType
  recordType : Option RecordType
  recordId : Option JsString
  evidence : Option JsString
  verifiedAt : Option JsString

def KnowledgeHandlingAction.toInput (item : KnowledgeHandlingAction) : KnowledgeActionInput :=
  ⟨some item.type, item.recordType, item.recordId, some item.evidence, item.verifiedAt⟩

def normalizeKnowledgeActions (value : List KnowledgeActionInput) : List KnowledgeHandlingAction :=
  value.filterMap fun item ↦ do
    let type ← item.type
    let evidence ← cleanText 4000 item.evidence
    return {
      type, recordType := item.recordType, recordId := cleanText 500 item.recordId, evidence,
      verifiedAt := cleanText 100 item.verifiedAt }

inductive Relevance where
  | relevant
  | not_relevant
deriving DecidableEq

structure KnowledgeMatchDisposition where
  knowledgeId : JsString
  knowledgeType : KnowledgeType
  relevance : Relevance
  evidence : JsString
  actions : List KnowledgeHandlingAction
deriving DecidableEq

structure KnowledgeDispositionInput where
  knowledgeId : Option JsString
  knowledgeType : Option KnowledgeType
  relevance : Option Relevance
  evidence : Option JsString
  actions : List KnowledgeActionInput

def KnowledgeMatchDisposition.toInput (item : KnowledgeMatchDisposition) : KnowledgeDispositionInput :=
  ⟨some item.knowledgeId, some item.knowledgeType, some item.relevance, some item.evidence,
    item.actions.map KnowledgeHandlingAction.toInput⟩

def normalizeKnowledgeMatchDispositions (value : List KnowledgeDispositionInput) : List KnowledgeMatchDisposition :=
  value.filterMap fun item ↦ do
    let knowledgeId ← cleanText 500 item.knowledgeId
    let knowledgeType ← item.knowledgeType
    let relevance ← item.relevance
    let evidence ← cleanText 4000 item.evidence
    return { knowledgeId, knowledgeType, relevance, evidence, actions := normalizeKnowledgeActions item.actions }

inductive CallbackResult where
  | unchanged
  | updated
  | created
  | not_relevant
  | deferred
deriving DecidableEq

def CallbackResult.text : CallbackResult → JsString
  | .unchanged => js "unchanged"
  | .updated => js "updated"
  | .created => js "created"
  | .not_relevant => js "not_relevant"
  | .deferred => js "deferred"

inductive ResponseAction where
  | «none»
  | reply
  | discuss
  | handoff
deriving DecidableEq

def ResponseAction.text : ResponseAction → JsString
  | .none => js "none"
  | .reply => js "reply"
  | .discuss => js "discuss"
  | .handoff => js "handoff"

structure KnowledgeMatchCallback where
  knowledgeId : JsString
  knowledgeType : KnowledgeType
  result : CallbackResult
  responseAction : ResponseAction
  evidence : JsString
  recordType : Option RecordType
  recordId : Option JsString
  verifiedAt : Option JsString
  callbackAt : JsString
  callbackByThreadId : Option JsString
deriving DecidableEq

structure KnowledgeCallbackInput where
  knowledgeId : Option JsString
  knowledgeType : Option KnowledgeType
  result : Option CallbackResult
  responseAction : Option ResponseAction
  evidence : Option JsString
  recordType : Option RecordType
  recordId : Option JsString
  verifiedAt : Option JsString
  callbackAt : Option JsString
  callbackByThreadId : Option JsString

def KnowledgeMatchCallback.toInput (item : KnowledgeMatchCallback) : KnowledgeCallbackInput :=
  ⟨some item.knowledgeId, some item.knowledgeType, some item.result, some item.responseAction, some item.evidence,
    item.recordType, item.recordId, item.verifiedAt, some item.callbackAt, item.callbackByThreadId⟩

def normalizeKnowledgeCallbacks (value : List KnowledgeCallbackInput) : List KnowledgeMatchCallback :=
  value.filterMap fun item ↦ do
    let knowledgeId ← cleanText 500 item.knowledgeId
    let knowledgeType ← item.knowledgeType
    let result ← item.result
    let responseAction ← item.responseAction
    let evidence ← cleanText 4000 item.evidence
    let callbackAt ← cleanText 100 item.callbackAt
    return {
      knowledgeId, knowledgeType, result, responseAction, evidence, recordType := item.recordType,
      recordId := cleanText 500 item.recordId, verifiedAt := cleanText 100 item.verifiedAt, callbackAt,
      callbackByThreadId := cleanText 100 item.callbackByThreadId }

def callbackIsFinal (callback : Option KnowledgeMatchCallback) : Bool :=
  callback.any fun callback ↦ callback.result ≠ .deferred

/-! ## Sources and workers -/

inductive AttachmentKind where
  | image
  | video
  | audio
  | file
deriving DecidableEq

structure SourceAttachmentEvidence where
  id : JsString
  messageId : JsString
  kind : AttachmentKind
  name : JsString
  mimeType : Option JsString
  size : Option Rat
  path : Option JsString
  ready : Bool
  error : Option JsString
deriving DecidableEq

/-- `ready` says that the status is `ready`. -/
structure SourceAttachmentInput where
  id : Option JsString
  messageId : Option JsString
  kind : Option AttachmentKind
  name : Option JsString
  mimeType : Option JsString
  size : Option Rat
  path : Option JsString
  ready : Bool
  error : Option JsString
deriving DecidableEq

def SourceAttachmentEvidence.toInput (item : SourceAttachmentEvidence) : SourceAttachmentInput :=
  ⟨some item.id, some item.messageId, some item.kind, some item.name, item.mimeType, item.size, item.path, item.ready,
    item.error⟩

def normalizeAttachments (value : List SourceAttachmentInput) : List SourceAttachmentEvidence :=
  value.filterMap fun item ↦ do
    let id ← cleanText 300 item.id
    let messageId ← cleanText 300 item.messageId
    let name ← cleanText 500 item.name
    return {
      id, messageId, kind := item.kind.getD .image, name, mimeType := cleanText 200 item.mimeType, size := item.size,
      path := cleanText 2000 item.path, ready := item.ready, error := cleanText 2000 item.error }

/-- The board reads only the type of the target from the context of a reply. -/
structure ReplyContext where
  targetType : Option JsString
deriving DecidableEq

structure Source where
  routeId : JsString
  routeProfileId : Option JsString
  roleId : Option JsString
  endpoint : JsString
  conversationKey : JsString
  sender : JsString
  routeKinds : List JsString
  messageIds : List JsString
  evidenceReviewRequired : Bool
  replyChainMessageIds : List JsString
  attachments : List SourceAttachmentEvidence
  summary : Option JsString
  replyContext : Option ReplyContext
deriving DecidableEq

structure SourceInput where
  routeId : Option JsString
  routeProfileId : Option JsString := none
  roleId : Option JsString := none
  endpoint : Option JsString
  conversationKey : Option JsString
  sender : Option JsString
  routeKinds : List JsString := []
  messageIds : List JsString
  evidenceReviewRequired : Bool := false
  replyChainMessageIds : List JsString := []
  attachments : List SourceAttachmentInput := []
  summary : Option JsString := none
  replyContext : Option ReplyContext := none
deriving DecidableEq

def Source.toInput (source : Source) : SourceInput where
  routeId := some source.routeId
  routeProfileId := source.routeProfileId
  roleId := source.roleId
  endpoint := some source.endpoint
  conversationKey := some source.conversationKey
  sender := some source.sender
  routeKinds := source.routeKinds
  messageIds := source.messageIds
  evidenceReviewRequired := source.evidenceReviewRequired
  replyChainMessageIds := source.replyChainMessageIds
  attachments := source.attachments.map SourceAttachmentEvidence.toInput
  summary := source.summary
  replyContext := source.replyContext

def normalizeSource (source : SourceInput) : Option Source := do
  let routeId ← cleanText 200 source.routeId
  let endpoint ← cleanText 120 source.endpoint
  let conversationKey ← cleanText 500 source.conversationKey
  let sender ← cleanText 500 source.sender
  return {
    routeId
    routeProfileId := cleanText 200 source.routeProfileId
    roleId := cleanText 200 source.roleId
    endpoint
    conversationKey
    sender
    routeKinds := stringList 20 source.routeKinds
    messageIds := stringList 100 source.messageIds
    evidenceReviewRequired := source.evidenceReviewRequired
    replyChainMessageIds := stringList 100 source.replyChainMessageIds
    attachments := normalizeAttachments source.attachments
    summary := cleanText 4000 source.summary
    replyContext := source.replyContext }

def messageReplyPolicy (source : Source) : ReplyPolicy :=
  let explicitKinds := ["private", "direct_at", "direct_reply", "role_panel_message"].map js
  if source.routeKinds.any fun kind ↦ decide (kind ∈ explicitKinds) then .required
  else if (source.replyContext.bind ReplyContext.targetType).getD [] = js "private" then .required
  else .agent_decides

inductive AgentAdapter where
  | codex
  | dsh
deriving DecidableEq

/-- `agentAdapter` is `dsh` or another adapter. -/
structure WorkerInput where
  dsh : Bool
  threadId : Option JsString
  threadName : Option JsString
  workspace : Option JsString

structure Worker where
  agentAdapter : AgentAdapter
  threadId : JsString
  threadName : JsString
  workspace : JsString
deriving DecidableEq

def Worker.toInput (worker : Worker) : WorkerInput :=
  ⟨decide (worker.agentAdapter = .dsh), some worker.threadId, some worker.threadName, some worker.workspace⟩

def normalizedWorker (worker : WorkerInput) : Option Worker := do
  let threadId ← cleanText 100 worker.threadId
  let threadName ← cleanText 300 worker.threadName
  let workspace ← cleanText 2000 worker.workspace
  return {
    agentAdapter := if worker.dsh || (js "session-").isPrefixOf threadId then .dsh else .codex
    threadId, threadName, workspace }

end RabiRoute.MessageProcessing
