import RabiRoute.Collections.Sorting
import RabiRoute.Shared.CleanText

/-!
# The values of identity relations

The readers of `identityRelations.ts` that make fields of the `unknown` values of a patch.
-/

open Collections

namespace RabiRoute.IdentityRelations

def maxText : Nat := 2000
def maxList : Nat := 50

/-- What a patch may hold.  A number is given by its text. -/
inductive Raw where
  | undefined
  | null
  | bool (b : Bool)
  | number (text : JsString)
  | text (text : JsString)
  | list (items : List Raw)
  | record (fields : List (JsString × Raw))

/-- What the language and its library decide. -/
structure Functions where
  /-- The first 32 digits of the SHA-256 of a text. -/
  sha256 : JsString → JsString
  localeCompare : JsString → JsString → Ordering
  /-- `Number(text)` by its text, where that is a number from 0 to 1. -/
  unitNumber : JsString → Option JsString

namespace Raw

/-- `value[name]` -/
def field (name : String) : Raw → Raw
  | record fields => ((fields.find? fun f ↦ decide (f.1 = js name)).map Prod.snd).getD undefined
  | _ => undefined

def isNullish : Raw → Bool
  | undefined => true
  | null => true
  | _ => false

def ofOption : Option JsString → Raw
  | some t => text t
  | none => undefined

mutual

/-- `String(value)` -/
def toText : Raw → JsString
  | undefined => js "undefined"
  | null => js "null"
  | bool b => if b then js "true" else js "false"
  | number t => t
  | text t => t
  | list items => joinTexts items
  | record _ => js "[object Object]"

/-- `items.join(",")` -/
def joinTexts : List Raw → JsString
  | [] => []
  | [item] => if item.isNullish then [] else item.toText
  | item :: next :: rest => (if item.isNullish then [] else item.toText) ++ 44 :: joinTexts (next :: rest)

end

end Raw

/-! ## Texts -/

/-- `replace(/\s+/g, " ")` -/
def collapseSpaces : JsString → JsString
  | [] => []
  | [u] => if JsString.isWhitespace u then [32] else [u]
  | u :: v :: rest =>
    if JsString.isWhitespace u then
      if JsString.isWhitespace v then collapseSpaces (v :: rest) else 32 :: collapseSpaces (v :: rest)
    else u :: collapseSpaces (v :: rest)

def text (limit : Nat) (value : Raw) : Option JsString :=
  let normalized := (JsString.trim (collapseSpaces (if value.isNullish then [] else value.toText))).take limit
  if normalized.isEmpty then none else some normalized

def requiredText (value : Raw) (label : String) (limit : Nat) : Except String JsString :=
  match text limit value with
  | none => throw (label ++ " is required.")
  | some normalized => pure normalized

def list (value : Raw) (limit : Nat) : Except String (List JsString) :=
  match value with
  | .list items => pure ((distinct (items.filterMap (text 300))).take limit)
  | _ => throw "Expected an array."

/-! ## Enumerations -/

inductive IdentityRelationStatus where
  | candidate
  | confirmed
  | corrected
  | retired
deriving DecidableEq

namespace IdentityRelationStatus

def name : IdentityRelationStatus → JsString
  | candidate => js "candidate"
  | confirmed => js "confirmed"
  | corrected => js "corrected"
  | retired => js "retired"

def all : List IdentityRelationStatus := [candidate, confirmed, corrected, retired]

/-- `isAuthoritativeIdentityStatus` -/
def isAuthoritative : IdentityRelationStatus → Bool
  | confirmed => true
  | corrected => true
  | _ => false

/-- `isActiveIdentityStatus` -/
def isActive (s : IdentityRelationStatus) : Bool := s == candidate || s.isAuthoritative

/-- `isActiveIdentityRelationStatus` -/
def isActiveRelation (s : IdentityRelationStatus) : Bool := s == candidate || s == confirmed

end IdentityRelationStatus

inductive IdentityParticipantKind where
  | person
  | organization
  | sharedAccount
  | automated
  | unknown
deriving DecidableEq

namespace IdentityParticipantKind

def name : IdentityParticipantKind → JsString
  | person => js "person"
  | organization => js "organization"
  | sharedAccount => js "shared_account"
  | automated => js "automated"
  | unknown => js "unknown"

def all : List IdentityParticipantKind := [person, organization, sharedAccount, automated, unknown]

end IdentityParticipantKind

inductive IdentityRelationTargetKind where
  | participant
  | organization
  | project
deriving DecidableEq

namespace IdentityRelationTargetKind

def name : IdentityRelationTargetKind → JsString
  | participant => js "participant"
  | organization => js "organization"
  | project => js "project"

def all : List IdentityRelationTargetKind := [participant, organization, project]

end IdentityRelationTargetKind

inductive IdentitySpeakingHabitDimension where
  | sentenceOpening
  | sentenceLength
  | stanceExpression
  | emotionThreshold
  | analogySource
  | punctuation
  | readerRelationship
  | valuePreference
  | informationOrder
  | avoidance
  | imperfection
  | sceneBoundary
deriving DecidableEq

namespace IdentitySpeakingHabitDimension

def name : IdentitySpeakingHabitDimension → JsString
  | sentenceOpening => js "sentence_opening"
  | sentenceLength => js "sentence_length"
  | stanceExpression => js "stance_expression"
  | emotionThreshold => js "emotion_threshold"
  | analogySource => js "analogy_source"
  | punctuation => js "punctuation"
  | readerRelationship => js "reader_relationship"
  | valuePreference => js "value_preference"
  | informationOrder => js "information_order"
  | avoidance => js "avoidance"
  | imperfection => js "imperfection"
  | sceneBoundary => js "scene_boundary"

def all : List IdentitySpeakingHabitDimension :=
  [sentenceOpening, sentenceLength, stanceExpression, emotionThreshold, analogySource, punctuation,
    readerRelationship, valuePreference, informationOrder, avoidance, imperfection, sceneBoundary]

end IdentitySpeakingHabitDimension

def status (value : Raw) (fallback : IdentityRelationStatus) : Except String IdentityRelationStatus :=
  match text 30 value with
  | none => pure fallback
  | some normalized =>
    match IdentityRelationStatus.all.find? fun s ↦ decide (s.name = normalized) with
    | some s => pure s
    | none => throw "Identity relation status must be candidate, confirmed, corrected, or retired."

def participantKind (value : Raw) (fallback : IdentityParticipantKind) : Except String IdentityParticipantKind :=
  match text 30 value with
  | none => pure fallback
  | some normalized =>
    match IdentityParticipantKind.all.find? fun k ↦ decide (k.name = normalized) with
    | some k => pure k
    | none => throw "Invalid participant kind."

def targetKind (value : Raw) : Except String IdentityRelationTargetKind := do
  let normalized ← requiredText value "targetKind" 30
  match IdentityRelationTargetKind.all.find? fun k ↦ decide (k.name = normalized) with
  | some k => pure k
  | none => throw "Invalid relation target kind."

/-- `Number(value)`, by its text. -/
def confidence (functions : Functions) (value : Raw) : Except String (Option JsString) :=
  let parse (t : JsString) : Except String (Option JsString) :=
    match functions.unitNumber t with
    | some n => pure (some n)
    | none => throw "Identity confidence must be between 0 and 1."
  match value with
  | .undefined => pure none
  | .null => pure none
  | .text [] => pure none
  | .bool b => parse (if b then js "1" else js "0")
  | other => parse other.toText

/-! ## Evidence, habits, scopes and links -/

structure IdentityEvidenceRef where
  gatewayId : Option JsString
  routeId : Option JsString
  endpoint : Option JsString
  conversationKey : Option JsString
  messageId : Option JsString
  note : Option JsString
deriving DecidableEq

def IdentityEvidenceRef.isBlank (e : IdentityEvidenceRef) : Bool :=
  e.gatewayId.isNone && e.routeId.isNone && e.endpoint.isNone && e.conversationKey.isNone && e.messageId.isNone &&
    e.note.isNone

/-- A text of a reference, as a value again. -/
def IdentityEvidenceRef.toRaw (e : IdentityEvidenceRef) : Raw :=
  .record [(js "gatewayId", .ofOption e.gatewayId), (js "routeId", .ofOption e.routeId),
    (js "endpoint", .ofOption e.endpoint), (js "conversationKey", .ofOption e.conversationKey),
    (js "messageId", .ofOption e.messageId), (js "note", .ofOption e.note)]

def evidenceRef : Raw → Option IdentityEvidenceRef
  | .record fields =>
    let raw := Raw.record fields
    let candidate : IdentityEvidenceRef :=
      { gatewayId := text 300 (raw.field "gatewayId")
        routeId := text 300 (raw.field "routeId")
        endpoint := text 300 (raw.field "endpoint")
        conversationKey := text 600 (raw.field "conversationKey")
        messageId := text 300 (raw.field "messageId")
        note := text 600 (raw.field "note") }
    if candidate.isBlank then none else some candidate
  | _ => none

def evidenceRefs (value : Raw) : Except String (List IdentityEvidenceRef) :=
  match value with
  | .undefined => pure []
  | .null => pure []
  | .list items => pure ((items.take maxList).filterMap evidenceRef)
  | _ => throw "Identity evidenceRefs must be an array."

/-- `uniqueEvidenceRefs(...groups)` of the groups in a row; `slice(-MAX_LIST)` keeps the last ones. -/
def uniqueEvidenceRefs (refs : List IdentityEvidenceRef) : List IdentityEvidenceRef :=
  sliceLast maxList (distinct (refs.filterMap fun e ↦ evidenceRef e.toRaw))

structure IdentitySpeakingHabit where
  dimension : IdentitySpeakingHabitDimension
  description : JsString
  confidence : Option JsString
  evidenceRefs : List IdentityEvidenceRef
deriving DecidableEq

def speakingHabit (functions : Functions) : Raw → Except String IdentitySpeakingHabit
  | .record fields => do
      let raw := Raw.record fields
      let name ← requiredText (raw.field "dimension") "speakingHabit.dimension" 60
      match IdentitySpeakingHabitDimension.all.find? fun d ↦ decide (d.name = name) with
      | none => throw "Invalid speaking-habit dimension."
      | some dimension =>
        let refs ← evidenceRefs (raw.field "evidenceRefs")
        if !refs.any (·.messageId.isSome) then
          throw "Speaking-habit evidence requires at least one confirmed-author messageId."
        else
          let description ← requiredText (raw.field "description") "speakingHabit.description" 600
          let confidence ← confidence functions (raw.field "confidence")
          pure ⟨dimension, description, confidence, refs⟩
  | _ => throw "Each speaking habit must be an object."

def speakingHabits (functions : Functions) (value : Raw) : Except String (List IdentitySpeakingHabit) :=
  match value with
  | .undefined => pure []
  | .null => pure []
  | .list items => (items.take 24).mapM (speakingHabit functions)
  | _ => throw "Identity speakingHabits must be an array."

structure IdentityScope where
  conversationKeys : List JsString
  projectIds : List JsString
deriving DecidableEq

def scopeList (value : Raw) : Except String (List JsString) := if value.isNullish then pure [] else list value maxList

def scope (value : Raw) : Except String IdentityScope := do
  let conversationKeys ← scopeList (value.field "conversationKeys")
  let projectIds ← scopeList (value.field "projectIds")
  pure ⟨conversationKeys, projectIds⟩

structure IdentityParticipantLink where
  participantId : JsString
  status : IdentityRelationStatus
  confidence : Option JsString
  evidenceRefs : List IdentityEvidenceRef
deriving DecidableEq

/-- An item that is no object is passed over. -/
def participantLink (functions : Functions) : Raw → Except String (Option IdentityParticipantLink)
  | .record fields => do
      let raw := Raw.record fields
      let participantId ← requiredText (raw.field "participantId") "participantLink.participantId" 300
      let status ← status (raw.field "status") .candidate
      let confidence ← confidence functions (raw.field "confidence")
      let refs ← evidenceRefs (raw.field "evidenceRefs")
      pure (some ⟨participantId, status, confidence, refs⟩)
  | _ => pure none

def participantLinks (functions : Functions) (value : Raw) : Except String (List IdentityParticipantLink) :=
  match value with
  | .list items => do
      let parsed ← (items.take maxList).mapM (participantLink functions)
      let links := parsed.filterMap id
      if (links.map (·.participantId)).Nodup then pure links
      else throw "An endpoint account may contain at most one link for each participant."
  | _ => throw "Identity participantLinks must be an array."

/-- A link of the view, as a value again. -/
def IdentityParticipantLink.toRaw (link : IdentityParticipantLink) : Raw :=
  .record [(js "participantId", .text link.participantId), (js "status", .text link.status.name),
    (js "confidence", (link.confidence.map .number).getD .undefined),
    (js "evidenceRefs", .list (link.evidenceRefs.map (·.toRaw)))]

/-! ## Identities -/

def endpointAccountId (functions : Functions) (platform endpointNamespace senderStableId : JsString) : JsString :=
  js "identity-account-" ++ functions.sha256 (platform ++ 0 :: endpointNamespace ++ 0 :: senderStableId)

/-- The id without its prefix. -/
def accountDigest (accountId : JsString) : JsString :=
  if (js "identity-account-").isPrefixOf accountId then accountId.drop (js "identity-account-").length else accountId

def observedParticipantPrefix : JsString := js "identity-participant-observed-"

def observedParticipantId (accountId : JsString) : JsString := observedParticipantPrefix ++ accountDigest accountId

end RabiRoute.IdentityRelations
