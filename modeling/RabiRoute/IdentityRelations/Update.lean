import RabiRoute.IdentityRelations.Records
import RabiRoute.JsonText.Document

/-!
# Updates of the identity log and the context of an account

`updateIdentityRelation` under the lock of the log: it reads the view, makes the record of the patch, and
appends one event that supersedes the heads that it read.
-/

open Collections

namespace RabiRoute.IdentityRelations

open IdentityRecord

/-- A field that is not there is `none`; `undefined` is a value of one that is. -/
structure IdentityRelationPatch where
  /-- `none` is a kind that is not supported. -/
  kind : Option RecordKind
  platform : Option Raw := none
  endpointIdentityNamespace : Option Raw := none
  senderStableId : Option Raw := none
  displayName : Option Raw := none
  isSelf : Option Raw := none
  participantLinks : Option Raw := none
  participantId : Option Raw := none
  participantKind : Option Raw := none
  aliases : Option Raw := none
  speakingHabits : Option Raw := none
  relationId : Option Raw := none
  subjectParticipantId : Option Raw := none
  targetKind : Option Raw := none
  targetId : Option Raw := none
  relationship : Option Raw := none
  status : Option Raw := none
  scope : Option Raw := none
  evidenceRefs : Option Raw := none

/-- The value of a field of a patch. -/
def given (field : Option Raw) : Raw := field.getD .undefined

/-- `field ?? fallback` -/
def givenOr (field : Option Raw) (fallback : Raw) : Raw := if (given field).isNullish then fallback else given field

/-- What one update draws: the time and its UUIDs. -/
structure Fresh where
  now : JsString
  eventUuid : JsString
  recordUuid : JsString

section Update

variable (functions : Functions) (log : IdentityLog)

def requireConflictResolutionFields (conflicted : Bool) (required : List (String × Bool)) : Except String Unit :=
  let missing := (required.filter fun field ↦ !field.2).map Prod.fst
  if conflicted && !missing.isEmpty then
    throw ("Resolving a conflicted identity relation requires explicit fields: " ++ ", ".intercalate missing ++ ".")
  else pure ()

def requireCurrentParticipant (participantId : JsString) (label : String) (authoritative : Bool) : Except String Unit :=
  match getRecord functions IdentityParticipant log participantId with
  | none => throw (label ++ " must reference an existing identity participant.")
  | some participant =>
    if participant.conflicted then throw (label ++ " cannot reference a conflicted identity participant.")
    else if !participant.record.status.isActive then
      throw (label ++ " cannot reference a retired identity participant.")
    else if authoritative && !participant.record.status.isAuthoritative then
      throw (label ++ " must reference a confirmed or corrected identity participant.")
    else pure ()

def validateParticipantLink (link : IdentityParticipantLink) : Except String Unit :=
  if link.status.isActive then
    requireCurrentParticipant functions log link.participantId "participantLink.participantId" link.status.isAuthoritative
  else pure ()

def validateParticipantLinks (links : List IdentityParticipantLink) : Except String Unit :=
  if 1 < (links.filter (·.status.isAuthoritative)).length then
    throw "An endpoint account may contain at most one confirmed or corrected participant link."
  else links.forM (validateParticipantLink functions log)

variable (fresh : Fresh) (patch : IdentityRelationPatch)

/-- The links of the patch, or those of the account. -/
def nextParticipantLinks (existing : Option (Viewed IdentityEndpointAccount)) :
    Except String (List IdentityParticipantLink) :=
  match patch.participantLinks with
  | some raw => participantLinks functions raw
  | none => pure ((existing.map (·.record.participantLinks)).getD [])

def nextIsSelf (existing : Option (Viewed IdentityEndpointAccount)) : Option Bool :=
  match patch.isSelf with
  | some (.bool b) => some b
  | some _ => none
  | none => existing.bind (·.record.isSelf)

def accountRecord : Except String IdentityEndpointAccount := do
  let platform ← requiredText (given patch.platform) "platform" 100
  let endpointIdentityNamespace ← requiredText (given patch.endpointIdentityNamespace) "endpointIdentityNamespace" 300
  let senderStableId ← requiredText (given patch.senderStableId) "senderStableId" 300
  let id := endpointAccountId functions platform endpointIdentityNamespace senderStableId
  let existing := getRecord functions IdentityEndpointAccount log id
  requireConflictResolutionFields (existing.any (·.conflicted)) [("participantLinks", patch.participantLinks.isSome)]
  let links ← nextParticipantLinks functions patch existing
  validateParticipantLinks functions log links
  pure
    { id, platform, endpointIdentityNamespace, senderStableId
      displayName := patch.displayName.elim (existing.bind (·.record.displayName)) (text 300)
      isSelf := nextIsSelf patch existing
      participantLinks := links
      updatedAt := fresh.now }

/-- The value that `read` makes of a field of the patch, or what the record has. -/
def readGiven {α : Type} (field : Option Raw) (read : Raw → Except String α) (kept : α) : Except String α :=
  field.elim (pure kept) read

def participantKey : JsString :=
  (text 300 (given patch.participantId)).getD (js "identity-participant-" ++ fresh.recordUuid)

def participantRecord : Except String IdentityParticipant := do
  let id := participantKey fresh patch
  let existing := getRecord functions IdentityParticipant log id
  requireConflictResolutionFields (existing.any (·.conflicted))
    [("participantKind", patch.participantKind.isSome), ("displayName", patch.displayName.isSome),
      ("aliases", patch.aliases.isSome), ("status", patch.status.isSome), ("evidenceRefs", patch.evidenceRefs.isSome)]
  let kind ← participantKind (given patch.participantKind) ((existing.map (·.record.kind)).getD .unknown)
  let aliases ← readGiven patch.aliases (list · maxList) ((existing.map (·.record.aliases)).getD [])
  let habits ← readGiven patch.speakingHabits (speakingHabits functions)
    ((existing.bind (·.record.speakingHabits)).getD [])
  let status ← status (given patch.status) ((existing.map (·.record.status)).getD .candidate)
  let refs ← readGiven patch.evidenceRefs evidenceRefs ((existing.map (·.record.evidenceRefs)).getD [])
  pure
    { id, kind, aliases, status
      displayName := patch.displayName.elim (existing.bind (·.record.displayName)) (text 300)
      speakingHabits := some habits
      evidenceRefs := refs
      updatedAt := fresh.now }

def cardKey : JsString := (text 300 (given patch.relationId)).getD (js "identity-relation-" ++ fresh.recordUuid)

/-- A text of the card, as a value of a patch. -/
def cardText (existing : Option (Viewed IdentityRelationCard)) (f : IdentityRelationCard → JsString) : Raw :=
  .ofOption (existing.map fun card ↦ f card.record)

def requireCurrentCard (card : IdentityRelationCard) : Except String Unit :=
  if card.status.isActiveRelation then do
    requireCurrentParticipant functions log card.subjectParticipantId "subjectParticipantId" false
    if card.targetKind = .participant then requireCurrentParticipant functions log card.targetId "targetId" false
    else pure ()
  else pure ()

def cardRecord : Except String IdentityRelationCard := do
  let id := cardKey fresh patch
  let existing := getRecord functions IdentityRelationCard log id
  requireConflictResolutionFields (existing.any (·.conflicted))
    [("subjectParticipantId", patch.subjectParticipantId.isSome), ("targetKind", patch.targetKind.isSome),
      ("targetId", patch.targetId.isSome), ("relationship", patch.relationship.isSome), ("status", patch.status.isSome),
      ("scope", patch.scope.isSome), ("evidenceRefs", patch.evidenceRefs.isSome)]
  let subjectParticipantId ←
    requiredText (givenOr patch.subjectParticipantId (cardText existing (·.subjectParticipantId))) "subjectParticipantId" 300
  let targetKind ← targetKind (givenOr patch.targetKind (cardText existing (·.targetKind.name)))
  let targetId ← requiredText (givenOr patch.targetId (cardText existing (·.targetId))) "targetId" 300
  let relationship ← requiredText (givenOr patch.relationship (cardText existing (·.relationship))) "relationship" 600
  let status ← status (given patch.status) ((existing.map (·.record.status)).getD .candidate)
  let scope ← readGiven patch.scope scope ((existing.map (·.record.scope)).getD ⟨[], []⟩)
  let refs ← readGiven patch.evidenceRefs evidenceRefs ((existing.map (·.record.evidenceRefs)).getD [])
  let card : IdentityRelationCard :=
    { id, subjectParticipantId, targetKind, targetId, relationship, status, scope
      evidenceRefs := refs
      updatedAt := fresh.now }
  requireCurrentCard functions log card
  pure card

inductive UpdatedRecord where
  | endpointAccount (record : Viewed IdentityEndpointAccount)
  | participant (record : Viewed IdentityParticipant)
  | relationCard (record : Viewed IdentityRelationCard)

structure UpdateResult where
  record : UpdatedRecord
  appended : Bool

/-- `[...ids].sort()`, by code units. -/
def sortTexts (texts : List JsString) : List JsString := texts.insertionSort (· ≤ ·)

/-- The view has the content of the record already. -/
def Viewed.same {T : Type} [IdentityRecord T] [DecidableEq T] (existing : Viewed T) (record : T) : Bool :=
  !existing.conflicted && !existing.nameAppended && decide (comparable existing.record = comparable record)

def eventId (uuid : JsString) : JsString := js "identity-relation-event-" ++ uuid

/-- The event that replaces the heads of its record. -/
def nextEvent {T : Type} (heads : List (IdentityRelationEvent T)) (record : T) : IdentityRelationEvent T :=
  { id := eventId fresh.eventUuid
    record
    createdAt := fresh.now
    supersedes := some (sortTexts (heads.map (·.id))) }

/-- Append the event of the record, unless nothing has changed. -/
def appendRecord {T : Type} [IdentityRecord T] [DecidableEq T] (updated : Viewed T → UpdatedRecord) (record : T) :
    UpdateResult × IdentityLog :=
  match getState functions T log (recordId record) with
  | some existing =>
    if existing.record.same record then (⟨updated existing.record, false⟩, log)
    else (⟨updated ⟨record, false, none⟩, true⟩, log ++ [logged (nextEvent fresh existing.heads record)])
  | none => (⟨updated ⟨record, false, none⟩, true⟩, log ++ [logged (nextEvent fresh [] record)])

/-- The update under the lock; an error leaves the log as it is. -/
def updateIdentityRelation : Except String (UpdateResult × IdentityLog) :=
  match patch.kind with
  | some .endpointAccount => do
      let record ← accountRecord functions log fresh patch
      pure (appendRecord functions log fresh .endpointAccount record)
  | some .participant => do
      let record ← participantRecord functions log fresh patch
      pure (appendRecord functions log fresh .participant record)
  | some .relationCard => do
      let record ← cardRecord functions log fresh patch
      pure (appendRecord functions log fresh .relationCard record)
  | none => throw "Unsupported identity relation kind."

end Update

/-! ## The context of an account -/

structure IdentityEndpointLookup where
  platform : Raw
  endpointIdentityNamespace : Raw
  senderStableId : Raw
  displayName : Raw
  conversationKey : Option JsString
  projectId : Option JsString

structure IdentityContextEndpoint where
  id : JsString
  platform : JsString
  endpointIdentityNamespace : JsString
  senderStableId : JsString
  displayName : Option JsString
  isSelf : Option Bool

structure LinkedParticipant where
  participant : Viewed IdentityParticipant
  link : IdentityParticipantLink

structure IdentityRelationContext where
  endpoint : IdentityContextEndpoint
  confirmedParticipant : Option (Viewed IdentityParticipant)
  possibleParticipants : List LinkedParticipant
  candidateParticipants : List LinkedParticipant
  relevantRelations : List (Viewed IdentityRelationCard)
  unresolved : List String

/-- A key that is there is one of the keys of the scope, where it has any. -/
def inScope (keys : List JsString) (key : Option JsString) : Bool :=
  keys.isEmpty || key.any fun k ↦ !k.isEmpty && decide (k ∈ keys)

def appliesToScope (card : IdentityRelationCard) (lookup : IdentityEndpointLookup) : Bool :=
  inScope card.scope.conversationKeys lookup.conversationKey && inScope card.scope.projectIds lookup.projectId

def usableParticipant (item : Viewed IdentityParticipant) : Bool := !item.conflicted && item.record.status.isActive

section Context

variable (functions : Functions) (log : IdentityLog) (lookup : IdentityEndpointLookup)

def contextEndpoint (account : Option (Viewed IdentityEndpointAccount))
    (platform endpointIdentityNamespace senderStableId : JsString) : IdentityContextEndpoint :=
  match account with
  | some account =>
    { id := account.record.id
      platform := account.record.platform
      endpointIdentityNamespace := account.record.endpointIdentityNamespace
      senderStableId := account.record.senderStableId
      displayName := account.record.displayName.or (text 300 lookup.displayName)
      isSelf := account.record.isSelf }
  | none =>
    { id := endpointAccountId functions platform endpointIdentityNamespace senderStableId
      platform, endpointIdentityNamespace, senderStableId
      displayName := text 300 lookup.displayName
      isSelf := none }

/-- The links of an account that may drive decisions. -/
def activeLinks (account : Option (Viewed IdentityEndpointAccount)) : List IdentityParticipantLink :=
  match account with
  | some account => if account.conflicted then [] else account.record.participantLinks
  | none => []

/-- The participant of a link, when it may be used. -/
def linkedParticipant (link : IdentityParticipantLink) : Option LinkedParticipant :=
  ((getRecord functions IdentityParticipant log link.participantId).filter usableParticipant).map (⟨·, link⟩)

def confirmedParticipantOf (links : List IdentityParticipantLink) : Option (Viewed IdentityParticipant) :=
  let confirmed := links.filter (·.status.isAuthoritative)
  let matches' := (confirmed.filterMap (linkedParticipant functions log)).filter
    (·.participant.record.status.isAuthoritative)
  match matches' with
  | [item] => if confirmed.length = 1 then some item.participant else none
  | _ => none

def linkedCandidates (links : List IdentityParticipantLink) : List LinkedParticipant :=
  (links.filter fun link ↦ link.status == .candidate).filterMap (linkedParticipant functions log)

def relevantCards (participantIds : List JsString) : List (Viewed IdentityRelationCard) :=
  sortBy (compareRecords functions)
    (((recordStates functions IdentityRelationCard log).map (·.record)).filter fun card ↦
      !card.conflicted && card.record.status.isActiveRelation && appliesToScope card.record lookup &&
        (decide (card.record.subjectParticipantId ∈ participantIds) ||
          (card.record.targetKind == .participant && decide (card.record.targetId ∈ participantIds))))

def unresolvedNotes (account : Option (Viewed IdentityEndpointAccount)) (confirmedLinks : Nat) (confirmed : Bool)
    (possible candidates : Nat) : List String :=
  (if account.isNone then ["当前账号尚未建立身份关系记录。"] else []) ++
    (if account.any (·.conflicted) then ["当前账号的身份映射存在并发冲突；在人工收敛前不得自动确认身份。"] else []) ++
    (if 1 < confirmedLinks then ["当前账号存在多个已确认参与者映射，需人工纠正。"]
      else if !confirmed && possible == 0 then ["当前账号尚无唯一且有效的已确认参与者映射。"] else []) ++
    (if 0 < possible then ["该账号与已识别人员存在非唯一关联；当前使用者需要结合本次对话另行判断。"] else []) ++
    (if 0 < candidates then ["候选参与者只能作为核对线索，不能用于称呼、授权或项目归属判断。"] else [])

def accountContext (platform endpointIdentityNamespace senderStableId : JsString) : IdentityRelationContext :=
  let account := getRecord functions IdentityEndpointAccount log
    (endpointAccountId functions platform endpointIdentityNamespace senderStableId)
  let links := activeLinks account
  let confirmed := confirmedParticipantOf functions log links
  let linked := linkedCandidates functions log links
  let possible := linked.filter (·.participant.record.status.isAuthoritative)
  let candidates := linked.filter fun item ↦ !item.participant.record.status.isAuthoritative
  let ids := confirmed.toList.map (·.record.id) ++ possible.map (·.participant.record.id) ++
    candidates.map (·.participant.record.id)
  { endpoint := contextEndpoint functions lookup account platform endpointIdentityNamespace senderStableId
    confirmedParticipant := confirmed
    possibleParticipants := possible
    candidateParticipants := candidates
    relevantRelations := relevantCards functions log lookup (ids.filter fun id ↦ !id.isEmpty)
    unresolved := unresolvedNotes account (links.filter (·.status.isAuthoritative)).length confirmed.isSome
      possible.length candidates.length }

def resolveIdentityRelationContext : Option IdentityRelationContext :=
  match text 100 lookup.platform, text 300 lookup.endpointIdentityNamespace, text 300 lookup.senderStableId with
  | some platform, some endpointIdentityNamespace, some senderStableId =>
    some (accountContext functions log lookup platform endpointIdentityNamespace senderStableId)
  | _, _, _ => none

end Context

end RabiRoute.IdentityRelations
