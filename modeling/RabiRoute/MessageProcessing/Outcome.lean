import RabiRoute.Collections.InsertionMap
import RabiRoute.MessageProcessing.Requirement

/-!
# What an outcome must settle

The requirement itself and the checks of `submitOutcome`.  Each check answers what the requirement
takes over, or the text of the error that it throws.
-/

open Collections

namespace RabiRoute.MessageProcessing

/-! ## Plans -/

structure PlanStep where
  id : JsString
  startedAt : Option JsString
  waitingFor : Option JsString
  completedAt : Option JsString
  blockedBy : Option JsString
deriving DecidableEq

/-- The fields of a `PlanItem` that the board reads. -/
structure PlanItem where
  id : JsString
  title : JsString
  updatedAt : JsString
  status : JsString
  currentStep : Option JsString
  currentStepId : Option JsString
  nextAction : Option JsString
  waitingFor : Option JsString
  isBlocked : Option Bool
  blockedBy : Option JsString
  steps : List PlanStep

/-- `stepsSignature` is the JSON text of the steps; the steps stand for it. -/
structure PlanSnapshot where
  updatedAt : JsString
  status : JsString
  currentStep : Option JsString
  currentStepId : Option JsString
  nextAction : Option JsString
  waitingFor : Option JsString
  isBlocked : Option Bool
  blockedBy : Option JsString
  stepsSignature : List PlanStep
deriving DecidableEq

def planSnapshot (plan : PlanItem) : PlanSnapshot where
  updatedAt := plan.updatedAt
  status := plan.status
  currentStep := plan.currentStep
  currentStepId := plan.currentStepId
  nextAction := plan.nextAction
  waitingFor := plan.waitingFor
  isBlocked := plan.isBlocked
  blockedBy := plan.blockedBy
  stepsSignature := plan.steps

/-- `a || b` on texts: the first that is neither missing nor empty, else the last. -/
def orText (a : Option JsString) (b : JsString) : JsString :=
  match a with
  | some text => if text.isEmpty then b else text
  | none => b

def change (name : String) (before after : JsString) : JsString :=
  js name ++ js "：" ++ before ++ js " → " ++ after

def stepText (currentStep currentStepId : Option JsString) : JsString :=
  orText currentStep (orText currentStepId (js "未设置"))

def blockedText (blockedBy : Option JsString) (isBlocked : Option Bool) : JsString :=
  orText blockedBy (if isBlocked.getD false then js "是" else js "否")

def describePlanSnapshotChanges (before : PlanSnapshot) (after : PlanItem) : List JsString :=
  (if before.status ≠ after.status then [change "状态" before.status after.status] else []) ++
  (if before.currentStepId ≠ after.currentStepId ∨ before.currentStep ≠ after.currentStep then
    [change "当前步骤" (stepText before.currentStep before.currentStepId)
      (stepText after.currentStep after.currentStepId)] else []) ++
  (if before.nextAction ≠ after.nextAction then
    [change "下一步" (orText before.nextAction (js "未设置")) (orText after.nextAction (js "未设置"))] else []) ++
  (if before.waitingFor ≠ after.waitingFor then
    [change "等待对象" (orText before.waitingFor (js "无")) (orText after.waitingFor (js "无"))] else []) ++
  (if before.isBlocked ≠ after.isBlocked ∨ before.blockedBy ≠ after.blockedBy then
    [change "阻塞" (blockedText before.blockedBy before.isBlocked) (blockedText after.blockedBy after.isBlocked)]
    else []) ++
  (if before.stepsSignature ≠ after.steps then [js "计划步骤进展已变化"] else [])

def describePlanCommunicationChanges (before after : PlanItem) : List JsString :=
  describePlanSnapshotChanges (planSnapshot before) after

/-! ## The requirement -/

inductive DecisionType where
  | reply
  | no_reply
  | handoff
deriving DecidableEq

inductive SilenceReason where
  | closing_only
  | duplicate
  | self_message
  | answered_by_other
  | message_withdrawn
  | superseded_by_followup
  | attachment_consumed
  | invalid_source
  | agent_judgement
deriving DecidableEq

structure Decision where
  type : DecisionType
  reasonCode : Option SilenceReason := none
  reason : Option JsString
  decidedAt : Time
  decidedByThreadId : Option JsString
deriving DecidableEq

structure Handoff where
  targetAgentType : JsString
  targetThreadId : Option JsString
  targetThreadName : Option JsString
  acceptedAt : Time
  returnedAt : Option Time := none
deriving DecidableEq

inductive DeliveryStatus where
  | sent
  | draft
  | blocked
  | failed
deriving DecidableEq

def DeliveryStatus.text : DeliveryStatus → JsString
  | .sent => js "sent"
  | .draft => js "draft"
  | .blocked => js "blocked"
  | .failed => js "failed"

structure Delivery where
  deliveryId : Option JsString
  status : DeliveryStatus
  channel : Option JsString := none
  sentMessageId : Option JsString
  sentFileId : Option JsString := none
  sentFileName : Option JsString := none
  reason : Option JsString
  updatedAt : Time
deriving DecidableEq

structure PlanChange where
  planId : JsString
  planTitle : JsString
  beforeUpdatedAt : Option JsString
  afterUpdatedAt : JsString
  changes : List JsString
deriving DecidableEq

/-- An empty list stands for a list that is missing. -/
structure Requirement where
  id : JsString
  dedupeKey : JsString
  kind : RequirementKind
  replyPolicy : ReplyPolicy
  status : RequirementStatus
  source : Source
  messageGroupId : Option JsString := none
  plan : Option PlanChange := none
  worker : Option Worker := none
  decision : Option Decision := none
  handoff : Option Handoff := none
  delivery : Option Delivery := none
  factAssessmentRequired : Bool := false
  projectFactAssessment : Option ProjectFactAssessment := none
  sourceEvidenceReview : Option MessageSourceEvidenceReview := none
  knowledgeMatches : List KnowledgeRecallMatch := []
  knowledgeMatchDispositions : List KnowledgeMatchDisposition := []
  knowledgeCallbacks : List KnowledgeMatchCallback := []
  knowledgeCallbackDueAt : Option Time := none
  lastKnowledgeReminderAt : Option Time := none
  criticalFacts : List CriticalProjectFactSignal := []
  criticalFactDisposition : Option CriticalProjectFactDisposition := none
  createdAt : Time
  updatedAt : Time
  dueAt : Time
  lastError : Option JsString := none
deriving DecidableEq

structure PlanOrigin where
  key : JsString
  roleId : JsString
  planId : JsString
  planTitle : Option JsString
  sourceRequirementId : JsString
  source : Source
  worker : Option Worker
  lastObservedPlanUpdatedAt : Option JsString := none
  lastPlan : Option PlanSnapshot := none
  linkedAt : Time
deriving DecidableEq

structure OutcomeInput where
  decision : DecisionType
  reasonCode : Option SilenceReason := none
  reason : Option JsString := none
  decidedByThreadId : Option JsString := none
  targetAgentType : Option JsString := none
  targetThreadId : Option JsString := none
  targetThreadName : Option JsString := none
  roleId : Option JsString := none
  planId : Option JsString := none
  planTitle : Option JsString := none
  projectFactAssessment : Option ProjectFactAssessmentInput := none
  sourceEvidenceReview : Option SourceEvidenceReviewInput := none
  knowledgeMatchDispositions : List KnowledgeDispositionInput := []
  criticalFactDisposition : Option CriticalFactDispositionInput := none

/-- `normalizeRequirement`, on a requirement that the board has written. -/
def normalizeRequirement (item : Requirement) : Option Requirement :=
  match normalizeSource item.source.toInput with
  | none => none
  | some source =>
    if item.id.isEmpty || item.dedupeKey.isEmpty then none
    else some { item with
      source
      projectFactAssessment :=
        normalizeProjectFactAssessment (item.projectFactAssessment.map ProjectFactAssessment.toInput)
      knowledgeMatches := normalizeKnowledgeMatches (item.knowledgeMatches.map KnowledgeRecallMatch.toInput)
      knowledgeMatchDispositions :=
        normalizeKnowledgeMatchDispositions (item.knowledgeMatchDispositions.map KnowledgeMatchDisposition.toInput)
      knowledgeCallbacks := normalizeKnowledgeCallbacks (item.knowledgeCallbacks.map KnowledgeMatchCallback.toInput)
      criticalFacts := normalizeCriticalFacts (item.criticalFacts.map CriticalProjectFactSignal.toInput)
      criticalFactDisposition :=
        normalizeCriticalFactDisposition (item.criticalFactDisposition.map CriticalProjectFactDisposition.toInput)
      worker := item.worker.bind fun worker ↦ normalizedWorker worker.toInput
      messageGroupId := cleanText 200 item.messageGroupId
      lastError := cleanText 4000 item.lastError }

/-- `normalizePlanOrigin`, on an origin that the board has written. -/
def normalizePlanOrigin (item : PlanOrigin) : Option PlanOrigin := do
  let source ← normalizeSource item.source.toInput
  let roleId ← cleanText 200 (some item.roleId)
  let planId ← cleanText 300 (some item.planId)
  let sourceRequirementId ← cleanText 300 (some item.sourceRequirementId)
  return { item with
    key := roleId ++ js ":" ++ planId ++ js ":" ++ sourceRequirementId
    roleId
    planId
    planTitle := cleanText 500 item.planTitle
    sourceRequirementId
    source
    worker := item.worker.bind fun worker ↦ normalizedWorker worker.toInput
    lastObservedPlanUpdatedAt := cleanText 100 item.lastObservedPlanUpdatedAt }

/-! ## The checks of an outcome -/

/-- `join(", ")` -/
def joinTexts : List JsString → JsString
  | [] => []
  | [text] => text
  | text :: texts => text ++ js ", " ++ joinTexts texts

/-- An error that lists texts, unless there are none. -/
def refuseAny (message : String) (texts : List JsString) : Except JsString Unit :=
  if texts.isEmpty then .ok () else .error (js message ++ joinTexts texts)

def refuseIf (condition : Bool) (message : JsString) : Except JsString Unit :=
  if condition then .error message else .ok ()

def attachmentReview (review : MessageSourceEvidenceReview) (id : JsString) : Option MessageSourceAttachmentReview :=
  -- the map holds the last review of an attachment
  review.attachmentReviews.reverse.find? fun item ↦ item.attachmentId = id

def checkSourceEvidenceReview (requirement : Requirement) (decision : DecisionType)
    (review : MessageSourceEvidenceReview) : Except JsString Unit := do
  refuseIf (!review.replyChainChecked || review.evidence.isEmpty || review.reviewedAt.isEmpty)
    (js "sourceEvidenceReview requires replyChainChecked=true, evidence, and reviewedAt.")
  let requiredMessageIds := requirement.source.messageIds ++ requirement.source.replyChainMessageIds
  let attachments := requirement.source.attachments
  refuseAny "sourceEvidenceReview contains messageIds outside this requirement: "
    (review.reviewedMessageIds.filter fun messageId ↦ messageId ∉ requiredMessageIds)
  refuseAny "sourceEvidenceReview contains attachments outside this requirement: "
    ((review.attachmentReviews.filter fun item ↦
      item.attachmentId ∉ attachments.map SourceAttachmentEvidence.id).map MessageSourceAttachmentReview.attachmentId)
  if decision = .reply then .ok ()
  else do
    refuseAny "sourceEvidenceReview must cover every source and reply-chain messageId. Missing: "
      (requiredMessageIds.filter fun messageId ↦ messageId ∉ review.reviewedMessageIds)
    refuseAny "sourceEvidenceReview must cover every attachment. Missing: "
      ((attachments.filter fun attachment ↦ (attachmentReview review attachment.id).isNone).map
        SourceAttachmentEvidence.id)
    refuseAny ("Source attachment is unavailable and cannot be answered by inference. Handoff or retry " ++
        "attachment retrieval: ")
      ((attachments.filter fun attachment ↦ !attachment.ready).map SourceAttachmentEvidence.id)
    refuseAny "Readable source attachments must be marked reviewed with a concrete observation: "
      ((attachments.filter fun attachment ↦
        !(attachmentReview review attachment.id).any fun item ↦ item.status = .reviewed).map
          SourceAttachmentEvidence.id)

def validateSourceEvidenceReview (requirement : Requirement) (input : OutcomeInput) :
    Except JsString (Option MessageSourceEvidenceReview) :=
  if requirement.kind ≠ .message_reply || input.decision = .handoff ||
      !requirement.source.evidenceReviewRequired then .ok none
  else
    match (normalizeSourceEvidenceReview input.sourceEvidenceReview).or requirement.sourceEvidenceReview with
    | none => .error (js "Message Agent must submit sourceEvidenceReview before closing or replying.")
    | some review => (checkSourceEvidenceReview requirement input.decision review).map fun _ ↦ some review

def checkProjectFactAssessment (requirement : Requirement) (decision : DecisionType)
    (assessment : ProjectFactAssessment) : Except JsString Unit := do
  refuseIf (!assessment.replyChainChecked || assessment.evidence.isEmpty || assessment.assessedAt.isEmpty)
    (js "projectFactAssessment requires replyChainChecked=true, evidence, and assessedAt.")
  refuseAny "projectFactAssessment contains messageIds outside this requirement: "
    (assessment.reviewedMessageIds.filter fun messageId ↦
      messageId ∉ requirement.source.messageIds ++ requirement.source.replyChainMessageIds)
  if decision = .reply then .ok ()
  else
    refuseAny "projectFactAssessment must cover every source messageId. Missing: "
      (requirement.source.messageIds.filter fun messageId ↦ messageId ∉ assessment.reviewedMessageIds)
  refuseIf (assessment.status = .critical && assessment.facts.isEmpty)
    (js "A critical projectFactAssessment requires at least one Agent-classified fact.")
  refuseIf (assessment.status = .none && !assessment.facts.isEmpty)
    (js "A none projectFactAssessment cannot include critical facts.")

def validateProjectFactAssessment (requirement : Requirement) (input : OutcomeInput) :
    Except JsString (Option ProjectFactAssessment) :=
  if requirement.kind ≠ .message_reply || input.decision = .handoff || !requirement.factAssessmentRequired then
    .ok none
  else
    match (normalizeProjectFactAssessment input.projectFactAssessment).or requirement.projectFactAssessment with
    | none => .error (js "Message Agent must submit projectFactAssessment before closing or replying.")
    | some assessment => (checkProjectFactAssessment requirement input.decision assessment).map fun _ ↦ some assessment

/-- The callbacks by the item that they answer, the last one of each. -/
def callbackById (callbacks : List KnowledgeMatchCallback) :
    InsertionMap (KnowledgeType × JsString) KnowledgeMatchCallback :=
  InsertionMap.empty.setAll (callbacks.map fun item ↦ ((item.knowledgeType, item.knowledgeId), item))

def checkCallbackDecision (decision : DecisionType) (callback : KnowledgeMatchCallback) : Except JsString Unit :=
  refuseIf ((callback.responseAction = .reply || callback.responseAction = .discuss) && decision ≠ .reply)
    (callback.responseAction.text ++ js " callback requires decision=reply for recalled item " ++
      callback.knowledgeId ++ js ".")

def KnowledgeHandlingActionType.writes : KnowledgeHandlingActionType → Option RecordType
  | .update_plan | .create_plan => some .plan
  | .update_memory | .create_memory => some .memory
  | _ => none

def checkKnowledgeAction (decision : DecisionType) (knowledgeId : JsString) (action : KnowledgeHandlingAction) :
    Except JsString Unit := do
  refuseIf ((action.type = .reply || action.type = .discuss) && decision ≠ .reply)
    (action.type.text ++ js " requires decision=reply for recalled item " ++ knowledgeId ++ js ".")
  refuseIf (action.type.writes.isSome && ((action.recordId.getD []).isEmpty || action.recordType.isNone ||
      (action.verifiedAt.getD []).isEmpty))
    (action.type.text ++ js " requires recordType, recordId, evidence, and verifiedAt for recalled item " ++
      knowledgeId ++ js ".")
  refuseIf (action.type.writes.isSome && action.recordType ≠ action.type.writes)
    (action.type.text ++ js " has an incompatible recordType for recalled item " ++ knowledgeId ++ js ".")

def checkKnowledgeDisposition (decision : DecisionType) (disposition : KnowledgeMatchDisposition) :
    Except JsString Unit := do
  refuseIf disposition.actions.isEmpty
    (js "knowledgeMatchDisposition " ++ disposition.knowledgeId ++ js " requires at least one action.")
  refuseIf (disposition.relevance = .not_relevant && disposition.actions.any fun action ↦ action.type ≠ .no_action)
    (js "A not_relevant recall may only use no_action: " ++ disposition.knowledgeId)
  refuseIf (disposition.relevance = .relevant && disposition.actions.all fun action ↦ action.type = .no_action)
    (js "A relevant recall requires reply, discussion, plan/memory update, creation, or handoff: " ++
      disposition.knowledgeId)
  disposition.actions.forM (checkKnowledgeAction decision disposition.knowledgeId)

def checkKnowledgeDispositions (requirement : Requirement) (decision : DecisionType)
    (dispositions : List KnowledgeMatchDisposition) : Except JsString Unit := do
  let keys := dispositions.map fun item ↦ (item.knowledgeType, item.knowledgeId)
  refuseAny "Every recalled plan or memory requires a knowledgeMatchDisposition. Missing: "
    ((requirement.knowledgeMatches.filter fun item ↦ (item.type, item.id) ∉ keys).map KnowledgeRecallMatch.id)
  refuseAny "knowledgeMatchDisposition contains items that were not recalled: "
    ((dispositions.filter fun item ↦
      !requirement.knowledgeMatches.any fun match_ ↦ match_.id = item.knowledgeId && match_.type = item.knowledgeType).map
        KnowledgeMatchDisposition.knowledgeId)
  dispositions.forM (checkKnowledgeDisposition decision)

def validateKnowledgeMatchDispositions (requirement : Requirement) (input : OutcomeInput) :
    Except JsString (Option (List KnowledgeMatchDisposition)) :=
  if requirement.kind ≠ .message_reply || input.decision = .handoff || !requirement.factAssessmentRequired then
    .ok none
  else
    let callbacks := callbackById requirement.knowledgeCallbacks
    if requirement.knowledgeMatches.all fun item ↦ callbackIsFinal (callbacks.get? (item.type, item.id)) then
      (callbacks.values.forM (checkCallbackDecision input.decision)).map fun _ ↦
        some requirement.knowledgeMatchDispositions
    else
      let dispositions := normalizeKnowledgeMatchDispositions input.knowledgeMatchDispositions
      (checkKnowledgeDispositions requirement input.decision dispositions).map fun _ ↦ some dispositions

/-- The critical facts that an outcome has to settle. -/
def factsToSettle (requirement : Requirement) (input : OutcomeInput) : List CriticalProjectFactSignal :=
  match requirement.projectFactAssessment.filter fun assessment ↦ assessment.status = .critical with
  | some assessment => assessment.facts
  | none =>
    match input.projectFactAssessment.filter fun assessment ↦ assessment.status = some .critical with
    | some assessment => normalizeCriticalFacts assessment.facts
    | none => requirement.criticalFacts

def validateCriticalFactDisposition (requirement : Requirement) (input : OutcomeInput) :
    Except JsString (Option CriticalProjectFactDisposition) :=
  if input.decision = .handoff then .ok none
  else if (factsToSettle requirement input).isEmpty then .ok none
  else
    match normalizeCriticalFactDisposition input.criticalFactDisposition with
    | none =>
      .error (js ("This message contains a critical project fact. Record and verify it in a plan, memory, or " ++
        "project document before closing or replying; otherwise hand it off."))
    | some disposition =>
      if disposition.status = .not_applicable then
        if disposition.evidence.isNone then
          .error (js "criticalFactDisposition.not_applicable requires evidence explaining the false positive.")
        else .ok (some disposition)
      else if disposition.record.isNone || disposition.evidence.isNone || disposition.verifiedAt.isNone then
        .error (js ("criticalFactDisposition requires a typed record reference, evidence, and verifiedAt for " ++
          "recorded or duplicate facts."))
      else .ok (some disposition)

/-! ## The reason of a silence -/

def allowedRequiredSilenceReasons : List SilenceReason :=
  [.closing_only, .duplicate, .self_message, .answered_by_other, .message_withdrawn, .superseded_by_followup,
    .attachment_consumed, .invalid_source]

def isAlphanumeric (u : UInt16) : Bool :=
  (65 ≤ u && u ≤ 90) || (97 ≤ u && u ≤ 122) || (48 ≤ u && u ≤ 57)

/-- The text after the name, if the text starts with it in any case. -/
def dropName (name : String) (text : JsString) : Option JsString :=
  let lowered := (js name).map JsString.lower
  if lowered.isPrefixOf (text.map JsString.lower) then some (text.drop lowered.length) else none

def namesMessage (text : JsString) : Bool :=
  ["messageId", "sentMessageId", "replyTo", "sourceMessageId"].any fun name ↦
    (dropName name text).any fun rest ↦
      let rest := rest.dropWhile JsString.isWhitespace
      -- an optional `:` or `=`
      let rest := match rest with
        | u :: tail => if u = 58 || u = 61 then tail else rest
        | [] => []
      (rest.dropWhile JsString.isWhitespace).head?.any isAlphanumeric

def reasonContainsNamedMessageReference (reason : JsString) : Bool := reason.tails.any namesMessage

def reasonContainsSourceMessageId (reason : JsString) (messageIds : List JsString) : Bool :=
  messageIds.any fun messageId ↦ !messageId.isEmpty && decide (messageId <:+: reason)

/-- One attachment code `[CQ:image...]` at the start of the text, and the text after it. -/
def dropAttachmentCode (text : JsString) : Option JsString :=
  match ["[CQ:image", "[CQ:video", "[CQ:file"].findSome? fun name ↦ dropName name text with
  | none => none
  | some rest =>
    match rest.dropWhile fun u ↦ u ≠ 93 with
    | _ :: tail => some (tail.dropWhile JsString.isWhitespace)
    | [] => none

/-- Whether the text is attachment codes and white space; each code takes some of the fuel. -/
def attachmentCodes : Nat → JsString → Bool
  | 0, _ => false
  | fuel + 1, text =>
    match dropAttachmentCode text with
    | none => false
    | some rest => rest.isEmpty || attachmentCodes fuel rest

def attachmentOnly (summary : JsString) : Bool :=
  attachmentCodes summary.length (summary.dropWhile JsString.isWhitespace)

end RabiRoute.MessageProcessing
