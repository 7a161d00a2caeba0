import RabiRoute.IdentityRelations.Update
import RabiRoute.JsonText.Data

/-!
# Observations of candidates

`recordIdentityCandidateObservation`: a pass over the whole observation, and then one update of the participant
and one of each relation.  An update draws its own time and UUIDs.
-/

open Collections

namespace RabiRoute.IdentityRelations

structure IdentityCandidateRelationObservation where
  targetKind : Raw
  targetId : Raw
  relationship : Raw
  scope : Raw
  evidenceRefs : Raw

structure IdentityCandidateObservation where
  platform : Raw
  endpointIdentityNamespace : Raw
  senderStableId : Raw
  conversationKey : Option JsString
  projectId : Option JsString
  participantId : Raw
  participantKind : Raw
  participantDisplayName : Raw
  aliases : Raw
  evidenceRefs : Raw
  relations : Option (List IdentityCandidateRelationObservation)

/-! ## The pass over the observation -/

/-- `[...keys].sort()` as data. -/
def sortedData (keys : List JsString) : JsonText.Data := .list ((sortTexts keys).map .string)

def observedRelationId (functions : Functions) (participantId : JsString) (targetKind : IdentityRelationTargetKind)
    (targetId relationship : JsString) (scope : IdentityScope) : JsString :=
  js "identity-relation-observed-" ++ functions.sha256 (participantId ++ 0 :: targetKind.name ++ 0 :: targetId ++
    0 :: relationship ++ 0 :: (JsonText.Data.record [(js "conversationKeys", sortedData scope.conversationKeys),
      (js "projectIds", sortedData scope.projectIds)]).write)

/-- A scope, as a value again. -/
def IdentityScope.toRaw (scope : IdentityScope) : Raw :=
  .record [(js "conversationKeys", .list (scope.conversationKeys.map .text)),
    (js "projectIds", .list (scope.projectIds.map .text))]

/-- A key that is there, as the list of it. -/
def keyList (key : Option JsString) : Raw := .list ((key.filter (· ≠ [])).toList.map .text)

/-- A relation that has passed, with the evidence that its card has; its own evidence has not been read. -/
structure PreparedRelation where
  targetKind : IdentityRelationTargetKind
  targetId : JsString
  relationship : JsString
  scope : IdentityScope
  evidenceRefs : Raw
  relationId : JsString
  existingEvidence : List IdentityEvidenceRef

structure PreparedObservation where
  participant : IdentityParticipant
  displayName : Option JsString
  aliases : List JsString
  evidence : List IdentityEvidenceRef
  relations : List PreparedRelation

section Prepare

variable (functions : Functions) (log : IdentityLog) (observation : IdentityCandidateObservation)

def candidateAccount : Except String IdentityEndpointAccount := do
  let platform ← requiredText observation.platform "platform" 100
  let endpointIdentityNamespace ← requiredText observation.endpointIdentityNamespace "endpointIdentityNamespace" 300
  let senderStableId ← requiredText observation.senderStableId "senderStableId" 300
  match getRecord functions IdentityEndpointAccount log
      (endpointAccountId functions platform endpointIdentityNamespace senderStableId) with
  | none => throw "Observe the endpoint account before adding identity clues."
  | some account =>
    if account.conflicted then throw "A conflicted endpoint account cannot learn identity clues automatically."
    else if account.record.isSelf = some true then
      throw "The persona's own endpoint account cannot be learned as an external participant."
    else if account.record.participantLinks.any (·.status.isAuthoritative) then
      throw "A confirmed endpoint account no longer accepts automatic candidate learning."
    else pure account.record

/-- The link of the account that the observation is about. -/
def candidateLink (account : IdentityEndpointAccount) : Option IdentityParticipantLink :=
  let candidateLinks := account.participantLinks.filter fun link ↦ link.status == .candidate
  match text 300 observation.participantId with
  | some requested => candidateLinks.find? fun link ↦ decide (link.participantId = requested)
  | none =>
    match candidateLinks with
    | [link] => some link
    | _ => none

def candidateParticipant (account : IdentityEndpointAccount) : Except String IdentityParticipant :=
  match candidateLink observation account with
  | none => throw "Identity clues require one existing candidate participant linked to this endpoint account."
  | some link =>
    match getRecord functions IdentityParticipant log link.participantId with
    | none => throw "Identity clues can update only an unconflicted candidate participant."
    | some participant =>
      if participant.conflicted || participant.record.status != .candidate then
        throw "Identity clues can update only an unconflicted candidate participant."
      else pure participant.record

def observedAliases (participant : IdentityParticipant) (displayName : Option JsString) : List JsString :=
  let given := match observation.aliases with
    | .list items => items.filterMap (text 300)
    | _ => []
  (distinct (participant.aliases ++ given ++ (givenName displayName).toList)).take maxList

def observationEvidence : Except String (List IdentityEvidenceRef) := do
  let refs ← evidenceRefs observation.evidenceRefs
  if refs.isEmpty then throw "Candidate identity clues require at least one evidence reference."
  else if !refs.any (·.messageId.isSome) then throw "Candidate identity clues require a source messageId."
  else pure refs

/-- The scope of a relation that names none. -/
def defaultScope : Raw :=
  .record [(js "conversationKeys", keyList observation.conversationKey),
    (js "projectIds", keyList observation.projectId)]

def prepareRelation (participant : IdentityParticipant) (raw : IdentityCandidateRelationObservation) :
    Except String PreparedRelation := do
  let scope ← scope (givenOr (some raw.scope) (defaultScope observation))
  let targetKind ← targetKind raw.targetKind
  let targetId ← requiredText raw.targetId "relation.targetId" 300
  let relationship ← requiredText raw.relationship "relation.relationship" 600
  let relationId := observedRelationId functions participant.id targetKind targetId relationship scope
  let existing := getRecord functions IdentityRelationCard log relationId
  if existing.any fun card ↦ card.conflicted || card.record.status != .candidate then
    throw "Automatic identity learning cannot overwrite a conflicted or confirmed relation."
  else
    pure
      { targetKind, targetId, relationship, scope, relationId
        evidenceRefs := raw.evidenceRefs
        existingEvidence := (existing.map (·.record.evidenceRefs)).getD [] }

def prepareObservation : Except String PreparedObservation := do
  let account ← candidateAccount functions log observation
  let participant ← candidateParticipant functions log observation account
  let displayName := (text 300 observation.participantDisplayName).or participant.displayName
  let evidence ← observationEvidence observation
  let relations ← ((observation.relations.getD []).take maxList).mapM
    (prepareRelation functions log observation participant)
  pure
    { participant, displayName, evidence, relations
      aliases := observedAliases observation participant displayName }

end Prepare

/-! ## The updates -/

def evidenceRaw (refs : List IdentityEvidenceRef) : Raw := .list (refs.map (·.toRaw))

def PreparedObservation.participantPatch (p : PreparedObservation) (participantKind : Raw) : IdentityRelationPatch where
  kind := some .participant
  participantId := some (.text p.participant.id)
  participantKind := some (givenOr (some participantKind) (.text p.participant.kind.name))
  displayName := some (.ofOption p.displayName)
  aliases := some (.list (p.aliases.map .text))
  status := some (.text (js "candidate"))
  evidenceRefs := some (evidenceRaw (uniqueEvidenceRefs (p.participant.evidenceRefs ++ p.evidence)))

/-- With the evidence of the relation itself. -/
def PreparedObservation.relationPatch (p : PreparedObservation) (r : PreparedRelation)
    (refs : List IdentityEvidenceRef) : IdentityRelationPatch where
  kind := some .relationCard
  relationId := some (.text r.relationId)
  subjectParticipantId := some (.text p.participant.id)
  targetKind := some (.text r.targetKind.name)
  targetId := some (.text r.targetId)
  relationship := some (.text r.relationship)
  status := some (.text (js "candidate"))
  scope := some r.scope.toRaw
  evidenceRefs := some (evidenceRaw (uniqueEvidenceRefs (r.existingEvidence ++ refs ++ p.evidence)))

section Record

variable (functions : Functions) (fresh : Nat → Fresh)

def relationUpdate (log : IdentityLog) (fresh : Fresh) (p : PreparedObservation) (r : PreparedRelation) :
    Except String (UpdateResult × IdentityLog) := do
  let refs ← evidenceRefs r.evidenceRefs
  updateIdentityRelation functions log fresh (p.relationPatch r refs)

/-- The updates of the relations, with the number of the next one, and the log where they end. -/
def recordRelations (p : PreparedObservation) :
    Nat → List PreparedRelation → IdentityLog → Except String (List UpdateResult) × IdentityLog
  | _, [], log => (.ok [], log)
  | n, r :: relations, log =>
    match relationUpdate functions log (fresh n) p r with
    | .error message => (.error message, log)
    | .ok (result, log) =>
      let rest := recordRelations p (n + 1) relations log
      (rest.1.map (result :: ·), rest.2)

structure ObservationResult where
  participant : UpdateResult
  relations : List UpdateResult

def ObservationResult.appended (result : ObservationResult) : Bool :=
  result.participant.appended || result.relations.any (·.appended)

/-- The answer, and the log that is left. -/
def recordIdentityCandidateObservation (log : IdentityLog) (observation : IdentityCandidateObservation) :
    Except String ObservationResult × IdentityLog :=
  match prepareObservation functions log observation with
  | .error message => (.error message, log)
  | .ok p =>
    match updateIdentityRelation functions log (fresh 0) (p.participantPatch observation.participantKind) with
    | .error message => (.error message, log)
    | .ok (participant, log) =>
      let rest := recordRelations functions fresh p 1 p.relations log
      (rest.1.map (⟨participant, ·⟩), rest.2)

end Record

end RabiRoute.IdentityRelations
