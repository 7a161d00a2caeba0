import RabiRoute.IdentityRelations.Copies
import RabiRoute.IdentityRelations.Observation
import RabiRoute.Interleave.RelyGuarantee
import RabiRoute.Interleave.Sequential

/-!
# Automatic learning next to reviewers

`observeIdentityEndpoint` and `recordIdentityCandidateObservation` read the state once, and then write one record
after another, each under the lock of its own.  Any number of calls run on one role, with those of reviewers.
-/

open Collections Interleave

namespace RabiRoute.IdentityRelations

/-! ## Calls -/

inductive Command where
  /-- `state(roleDir)`, without the lock. -/
  | read
  /-- `updateIdentityRelation` of an automatic call. -/
  | learn (patch : IdentityRelationPatch)
  /-- `updateIdentityRelation` of a reviewer. -/
  | review (patch : IdentityRelationPatch)

def Value : Command → Type
  | .read => IdentityLog
  | .learn _ => UpdateResult
  | .review _ => UpdateResult

abbrev Call := Program Command (Program.Fallible String Value) String

def read : Call IdentityLog := Program.performOrThrow Command.read

def learn (patch : IdentityRelationPatch) : Call UpdateResult := Program.performOrThrow (Command.learn patch)

def review (patch : IdentityRelationPatch) : Call UpdateResult := Program.performOrThrow (Command.review patch)

def orThrow {α : Type} : Except String α → Call α
  | .ok a => pure a
  | .error message => .raise message

section Observe

structure IdentityEndpointObservationResult where
  context : Option IdentityRelationContext
  participantId : Option JsString
  accountCreated : Bool
  participantCreated : Bool
  updated : Bool

variable (functions : Functions) (lookup : IdentityEndpointLookup)

/-- The log is read anew for the context. -/
def untouched (participantId : Option JsString) : Call IdentityEndpointObservationResult := do
  let log ← read
  pure ⟨resolveIdentityRelationContext functions log lookup, participantId, false, false, false⟩

def automaticEvidence (platform endpointIdentityNamespace senderStableId : JsString) : List IdentityEvidenceRef :=
  [{ gatewayId := none
     routeId := none
     endpoint := some (platform ++ js "/" ++ endpointIdentityNamespace ++ js "/" ++ senderStableId)
     conversationKey := none
     messageId := none
     note := some (js "系统首次看到此稳定消息端账号，身份仍待确认。") }]

def accountLinks (account : Option (Viewed IdentityEndpointAccount)) : List IdentityParticipantLink :=
  (account.map (·.record.participantLinks)).getD []

def candidateLinks (account : Option (Viewed IdentityEndpointAccount)) : List IdentityParticipantLink :=
  (accountLinks account).filter fun link ↦ link.status == .candidate

/-- The one candidate of the account, or a new one; `none` where there are several. -/
def observedCandidate (before : IdentityLog) (uuid : JsString) (accountId : JsString)
    (account : Option (Viewed IdentityEndpointAccount)) : Option JsString :=
  match candidateLinks account with
  | [link] => if link.participantId = [] then none else some link.participantId
  | [] =>
    if (getRecord functions IdentityParticipant before (observedParticipantId accountId)).isSome then
      some (observedParticipantPrefix ++ uuid)
    else some (observedParticipantId accountId)
  | _ => none

/-- Nothing is known of the participant, or it is a candidate without a conflict. -/
def isLearnable (participant : Option (Viewed IdentityParticipant)) : Bool :=
  participant.all fun participant ↦ !participant.conflicted && participant.record.status == .candidate

def observedParticipantPatch (participantId : JsString) (participant : Option (Viewed IdentityParticipant))
    (observedName : Option JsString) (evidence : List IdentityEvidenceRef) : IdentityRelationPatch where
  kind := some .participant
  participantId := some (.text participantId)
  participantKind := some (.text (participant.elim IdentityParticipantKind.unknown (·.record.kind)).name)
  displayName := some (.ofOption ((participant.bind (·.record.displayName)).or observedName))
  aliases := some (.list (((distinct ((participant.map (·.record.aliases)).getD [] ++ observedName.toList)).take
    maxList).map .text))
  status := some (.text (js "candidate"))
  evidenceRefs := some (evidenceRaw (uniqueEvidenceRefs
    ((participant.map (·.record.evidenceRefs)).getD [] ++ evidence)))

/-- A new candidate link, as a value. -/
def candidateLinkRaw (participantId : JsString) (evidence : List IdentityEvidenceRef) : Raw :=
  .record [(js "participantId", .text participantId), (js "status", .text (js "candidate")),
    (js "confidence", .number (js "0.1")), (js "evidenceRefs", evidenceRaw evidence)]

def observedLinks (account : Option (Viewed IdentityEndpointAccount)) (participantId : JsString)
    (evidence : List IdentityEvidenceRef) : List Raw :=
  let known := (candidateLinks account).find? fun link ↦ decide (link.participantId = participantId)
  let linkEvidence := (known.map (·.evidenceRefs)).getD evidence
  (accountLinks account).map (·.toRaw) ++
    (if known.isSome then [] else [candidateLinkRaw participantId linkEvidence])

def observedAccountPatch (platform endpointIdentityNamespace senderStableId : JsString)
    (account : Option (Viewed IdentityEndpointAccount)) (observedName : Option JsString) (links : List Raw) :
    IdentityRelationPatch where
  kind := some .endpointAccount
  platform := some (.text platform)
  endpointIdentityNamespace := some (.text endpointIdentityNamespace)
  senderStableId := some (.text senderStableId)
  displayName := some (.ofOption (observedName.or (account.bind (·.record.displayName))))
  isSelf := some (((account.bind (·.record.isSelf)).map .bool).getD .undefined)
  participantLinks := some (.list links)

/-- The account is left to the reviewers. -/
def isReserved (account : Option (Viewed IdentityEndpointAccount)) : Bool :=
  account.any fun account ↦ account.conflicted || account.record.isSelf == some true ||
    account.record.participantLinks.any (·.status.isAuthoritative)

def learnParticipant (participantId : JsString) (participant : Option (Viewed IdentityParticipant))
    (observedName : Option JsString) (evidence : List IdentityEvidenceRef) : Call (Option UpdateResult) :=
  if isLearnable participant then some <$> learn (observedParticipantPatch participantId participant observedName evidence)
  else pure none

def learnCandidate (platform endpointIdentityNamespace senderStableId : JsString) (before : IdentityLog)
    (account : Option (Viewed IdentityEndpointAccount)) (participantId : JsString) :
    Call IdentityEndpointObservationResult := do
  let evidence := automaticEvidence platform endpointIdentityNamespace senderStableId
  let participant := getRecord functions IdentityParticipant before participantId
  let observedName := text 300 lookup.displayName
  let participantResult ← learnParticipant participantId participant observedName evidence
  let accountResult ← learn (observedAccountPatch platform endpointIdentityNamespace senderStableId account
    observedName (observedLinks account participantId evidence))
  let log ← read
  pure
    { context := resolveIdentityRelationContext functions log lookup
      participantId := some participantId
      accountCreated := account.isNone && accountResult.appended
      participantCreated := participant.isNone && participantResult.any (·.appended)
      updated := participantResult.any (·.appended) || accountResult.appended }

/-- What follows from the state that was read. -/
def observeAccount (uuid platform endpointIdentityNamespace senderStableId : JsString) (before : IdentityLog) :
    Call IdentityEndpointObservationResult :=
  let accountId := endpointAccountId functions platform endpointIdentityNamespace senderStableId
  let account := getRecord functions IdentityEndpointAccount before accountId
  if isReserved account then
    untouched functions lookup (((accountLinks account).find? (·.status.isAuthoritative)).map (·.participantId))
  else
    match observedCandidate functions before uuid accountId account with
    | none => untouched functions lookup none
    | some participantId =>
      learnCandidate functions lookup platform endpointIdentityNamespace senderStableId before account participantId

/-- The UUID is drawn when the participant has to be a new one. -/
def observeIdentityEndpoint (uuid : JsString) : Call IdentityEndpointObservationResult :=
  match text 100 lookup.platform, text 300 lookup.endpointIdentityNamespace, text 300 lookup.senderStableId with
  | some platform, some endpointIdentityNamespace, some senderStableId =>
    read >>= observeAccount functions lookup uuid platform endpointIdentityNamespace senderStableId
  | _, _, _ => pure ⟨none, none, false, false, false⟩

end Observe

section Record

variable (functions : Functions)

def learnRelations (p : PreparedObservation) : List PreparedRelation → Call (List UpdateResult)
  | [] => pure []
  | r :: relations => do
      let refs ← orThrow (evidenceRefs r.evidenceRefs)
      let result ← learn (p.relationPatch r refs)
      let results ← learnRelations p relations
      pure (result :: results)

/-- `recordIdentityCandidateObservation`, one command after another. -/
def learnObservation (observation : IdentityCandidateObservation) : Call ObservationResult := do
  let before ← read
  let p ← orThrow (prepareObservation functions before observation)
  let participant ← learn (p.participantPatch observation.participantKind)
  let relations ← learnRelations p p.relations
  pure ⟨participant, relations⟩

end Record

/-! ## Runs of calls -/

def Viewed.key {T : Type} [IdentityRecord T] (viewed : Viewed T) : RecordKind × JsString :=
  (IdentityRecord.kind T, IdentityRecord.recordId viewed.record)

def UpdatedRecord.key : UpdatedRecord → RecordKind × JsString
  | .endpointAccount viewed => viewed.key
  | .participant viewed => viewed.key
  | .relationCard viewed => viewed.key

def IdentityEndpointAccount.isSettled (account : IdentityEndpointAccount) : Bool :=
  account.isSelf == some true || account.participantLinks.any (·.status.isAuthoritative)

def IdentityParticipant.isSettled (participant : IdentityParticipant) : Bool := participant.status != .candidate

def IdentityRelationCard.isSettled (card : IdentityRelationCard) : Bool := card.status != .candidate

/-- The record is a reviewer's: a status other than candidate, or an account that is linked for good or the
persona's own. -/
def UpdatedRecord.isSettled : UpdatedRecord → Bool
  | .endpointAccount viewed => !viewed.conflicted && viewed.record.isSettled
  | .participant viewed => !viewed.conflicted && viewed.record.isSettled
  | .relationCard viewed => !viewed.conflicted && viewed.record.isSettled

/-- The view of one record. -/
def viewed (functions : Functions) (log : IdentityLog) : RecordKind × JsString → Option UpdatedRecord
  | (.endpointAccount, id) => (getRecord functions IdentityEndpointAccount log id).map .endpointAccount
  | (.participant, id) => (getRecord functions IdentityParticipant log id).map .participant
  | (.relationCard, id) => (getRecord functions IdentityRelationCard log id).map .relationCard

/-- A text of a patch as it is given. -/
def rawText : Option Raw → JsString
  | some (.text t) => t
  | _ => []

/-- The record that the texts of an automatic patch name. -/
def namedKey (functions : Functions) (patch : IdentityRelationPatch) : Option (RecordKind × JsString) :=
  patch.kind.map fun kind ↦
    match kind with
    | .endpointAccount => (.endpointAccount, endpointAccountId functions (rawText patch.platform)
        (rawText patch.endpointIdentityNamespace) (rawText patch.senderStableId))
    | .participant => (.participant, rawText patch.participantId)
    | .relationCard => (.relationCard, rawText patch.relationId)

/-- The record that the update writes: the texts are read once more. -/
def writtenKey (functions : Functions) (fresh : Fresh) (patch : IdentityRelationPatch) :
    Option (RecordKind × JsString) :=
  patch.kind.map fun kind ↦
    match kind with
    | .endpointAccount => (.endpointAccount, endpointAccountId functions
        ((text 100 (given patch.platform)).getD []) ((text 300 (given patch.endpointIdentityNamespace)).getD [])
        ((text 300 (given patch.senderStableId)).getD []))
    | .participant => (.participant, participantKey fresh patch)
    | .relationCard => (.relationCard, cardKey fresh patch)

structure Role (Tid : Type) where
  log : IdentityLog
  /-- All the events that were ever written in some copy, for the statements only. -/
  history : IdentityLog
  /-- The length of the log after the last review of the record, when that has settled it; for the statements only. -/
  reviewed : RecordKind × JsString → Option Nat
  /-- The length of the log when the call read it last, for the statements only. -/
  reads : Tid → Nat

section Runs

variable {Tid : Type} [DecidableEq Tid] (functions : Functions)

/-- One update, under the lock. -/
def Role.update (s : Role Tid) (fresh : Fresh) (patch : IdentityRelationPatch) : Except String UpdateResult × Role Tid :=
  match updateIdentityRelation functions s.log fresh patch with
  | .ok (result, log) => (.ok result, { s with log, history := s.history ++ log.drop s.log.length })
  | .error message => (.error message, s)

def Role.review (s : Role Tid) : Except String UpdateResult → Role Tid
  | .ok result =>
    let settled := if result.record.isSettled then some s.log.length else none
    { s with reviewed := Function.update s.reviewed result.record.key settled }
  | .error _ => s

def execute (t : Tid) : (c : Command) → Fresh → Role Tid → Option (Program.Fallible String Value c × Role Tid)
  | .read, _, s => some (.ok s.log, { s with reads := Function.update s.reads t s.log.length })
  | .learn patch, fresh, s => if fresh.suits s.history then some (s.update functions fresh patch) else none
  | .review patch, fresh, s =>
    if fresh.suits s.history then
      let updated := s.update functions fresh patch
      some (updated.1, updated.2.review updated.1)
    else none

/-- No other process changes the state. -/
def learning : Machine (Role Tid) Command (Program.Fallible String Value) Tid Fresh Empty where
  exec := execute functions
  event e := nomatch e

inductive Task where
  | observe (uuid : JsString) (lookup : IdentityEndpointLookup)
  | record (observation : IdentityCandidateObservation)
  | review (patch : IdentityRelationPatch)

def Task.run : Task → Call Unit
  | .observe uuid lookup => do let _ ← observeIdentityEndpoint functions lookup uuid
  | .record observation => do let _ ← learnObservation functions observation
  | .review patch => do let _ ← IdentityRelations.review patch

/-- Every task is about to begin on a copy of the log. -/
def Role.start (log history : IdentityLog) (tasks : Tid → Task) :
    Config (Role Tid) Command (Program.Fallible String Value) Tid String Unit :=
  ⟨⟨log, history, fun _ ↦ none, fun _ ↦ 0⟩, fun t ↦ (tasks t).run functions⟩

/-- An update of an automatic call writes the record that it names, and no review has settled that record since
the call read the log. -/
def Timely (t : Tid) (c : Command) (fresh : Fresh) (s : Role Tid) : Prop :=
  match c with
  | .learn patch => writtenKey functions fresh patch = namedKey functions patch ∧
      ∀ key ∈ namedKey functions patch, ∀ n ∈ s.reviewed key, n ≤ s.reads t
  | _ => True

instance (t : Tid) (c : Command) (fresh : Fresh) (s : Role Tid) : Decidable (Timely functions t c fresh s) :=
  match c with
  | .learn _ => inferInstanceAs (Decidable (_ ∧ _))
  | .read => .isTrue trivial
  | .review _ => .isTrue trivial

end Runs

end RabiRoute.IdentityRelations
