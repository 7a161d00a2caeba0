import RabiRoute.Collections.InsertionMap
import RabiRoute.IdentityRelations.Values

/-!
# The identity log and its view

A log is the list of its events, one a line.  Each event names the events that it supersedes; the events of a
record that no other one supersedes are its heads, and the view of the record is made of them.
-/

open Collections

namespace RabiRoute.IdentityRelations

/-! ## Records -/

structure IdentityEndpointAccount where
  id : JsString
  platform : JsString
  endpointIdentityNamespace : JsString
  senderStableId : JsString
  displayName : Option JsString
  isSelf : Option Bool
  participantLinks : List IdentityParticipantLink
  updatedAt : JsString
deriving DecidableEq

structure IdentityParticipant where
  id : JsString
  kind : IdentityParticipantKind
  displayName : Option JsString
  aliases : List JsString
  speakingHabits : Option (List IdentitySpeakingHabit)
  status : IdentityRelationStatus
  evidenceRefs : List IdentityEvidenceRef
  updatedAt : JsString
deriving DecidableEq

structure IdentityRelationCard where
  id : JsString
  subjectParticipantId : JsString
  targetKind : IdentityRelationTargetKind
  targetId : JsString
  relationship : JsString
  status : IdentityRelationStatus
  scope : IdentityScope
  evidenceRefs : List IdentityEvidenceRef
  updatedAt : JsString
deriving DecidableEq

structure IdentityRelationEvent (T : Type) where
  id : JsString
  record : T
  createdAt : JsString
  /-- All event heads replaced by this deliberate update. -/
  supersedes : Option (List JsString)
deriving DecidableEq

inductive RecordKind where
  | endpointAccount
  | participant
  | relationCard
deriving DecidableEq

def RecordKind.name : RecordKind → JsString
  | endpointAccount => js "endpoint_account"
  | participant => js "participant"
  | relationCard => js "relation_card"

inductive LogEvent where
  | endpointAccount (event : IdentityRelationEvent IdentityEndpointAccount)
  | participant (event : IdentityRelationEvent IdentityParticipant)
  | relationCard (event : IdentityRelationEvent IdentityRelationCard)
deriving DecidableEq

abbrev IdentityLog := List LogEvent

/-- What the view does with a kind of record.  `comparable` and `conflictComparable` blank the fields that the
comparison drops; a name that only `merged` adds stands behind the other fields, which a comparison sees. -/
class IdentityRecord (T : Type) where
  kind : RecordKind
  recordId : T → JsString
  updatedAt : T → JsString
  comparable : T → T
  conflictComparable : T → T
  /-- The record that the heads, by time, make of the latest one. -/
  merged : List T → T → T
  nameAppended : List T → T → Bool
  event : LogEvent → Option (IdentityRelationEvent T)
  logged : IdentityRelationEvent T → LogEvent

open IdentityRecord

/-- A name that is not empty. -/
def givenName : Option JsString → Option JsString
  | some [] => none
  | name => name

instance : IdentityRecord IdentityEndpointAccount where
  kind := .endpointAccount
  recordId := (·.id)
  updatedAt := (·.updatedAt)
  comparable r := { r with updatedAt := [] }
  conflictComparable r := { r with updatedAt := [], displayName := none }
  merged byTime r := { r with displayName := byTime.reverse.findSome? fun r ↦ givenName r.displayName }
  nameAppended byTime r :=
    r.displayName.isNone && (byTime.reverse.findSome? fun r ↦ givenName r.displayName).isSome
  event
    | .endpointAccount event => some event
    | _ => none
  logged := .endpointAccount

/-- A person that was only seen. -/
def IdentityParticipant.isObserved (r : IdentityParticipant) : Bool :=
  observedParticipantPrefix.isPrefixOf r.id && r.kind == .unknown && r.status == .candidate

instance : IdentityRecord IdentityParticipant where
  kind := .participant
  recordId := (·.id)
  updatedAt := (·.updatedAt)
  comparable r := { r with updatedAt := [] }
  conflictComparable r :=
    if r.isObserved then { r with updatedAt := [], displayName := none, aliases := [], evidenceRefs := [] }
    else { r with updatedAt := [] }
  merged byTime r :=
    if r.isObserved then
      { r with
        displayName := byTime.reverse.findSome? fun r ↦ givenName r.displayName
        aliases := (distinct (byTime.flatMap (·.aliases))).take maxList
        evidenceRefs := uniqueEvidenceRefs (byTime.flatMap (·.evidenceRefs)) }
    else r
  nameAppended byTime r :=
    r.isObserved && r.displayName.isNone && (byTime.reverse.findSome? fun r ↦ givenName r.displayName).isSome
  event
    | .participant event => some event
    | _ => none
  logged := .participant

instance : IdentityRecord IdentityRelationCard where
  kind := .relationCard
  recordId := (·.id)
  updatedAt := (·.updatedAt)
  comparable r := { r with updatedAt := [] }
  conflictComparable r := { r with updatedAt := [] }
  merged _ r := r
  nameAppended _ _ := false
  event
    | .relationCard event => some event
    | _ => none
  logged := .relationCard

/-! ## Heads -/

section View

variable {T : Type} [IdentityRecord T] [DecidableEq T] (functions : Functions)

/-- `eventSupersedes` -/
def IdentityRelationEvent.parents (event : IdentityRelationEvent T) : Option (List JsString) :=
  event.supersedes.map fun raw ↦ distinct (raw.filterMap fun id ↦ (text 300 (.text id)).filter (· ≠ event.id))

/-- What the pass over the lines of a record knows. -/
structure HeadScan where
  superseded : List JsString
  currentHeads : List JsString

def scanEvent (explicitSuperseded : List JsString) (scan : HeadScan) (event : IdentityRelationEvent T) : HeadScan :=
  let parents := event.parents.getD scan.currentHeads
  let heads := scan.currentHeads.filter (· ∉ parents)
  { superseded := scan.superseded ++ parents
    currentHeads := if event.id ∈ explicitSuperseded ∨ event.id ∈ heads then heads else heads ++ [event.id] }

def headsOf (group : List (IdentityRelationEvent T)) : List (IdentityRelationEvent T) :=
  let explicitSuperseded := group.flatMap fun event ↦ event.parents.getD []
  let scan := group.foldl (scanEvent explicitSuperseded) ⟨explicitSuperseded, []⟩
  let heads := group.filter (·.id ∉ scan.superseded)
  if heads.isEmpty then group.getLast?.toList else heads

/-! ## The view of a record -/

structure IdentityRelationConflictState (T : Type) where
  conflictEventIds : List JsString
  conflictCandidates : List (JsString × T)

/-- A record with its conflict state. -/
structure Viewed (T : Type) where
  record : T
  nameAppended : Bool
  conflict : Option (IdentityRelationConflictState T)

def Viewed.conflicted (v : Viewed T) : Bool := v.conflict.isSome

def compareIds (a b : IdentityRelationEvent T) : Ordering := functions.localeCompare a.id b.id

def compareTimes (a b : IdentityRelationEvent T) : Ordering :=
  (functions.localeCompare (updatedAt a.record) (updatedAt b.record)).then (compareIds functions a b)

/-- The records of the heads by time. -/
def recordsByTime (heads : List (IdentityRelationEvent T)) : List T :=
  (sortBy (compareTimes functions) heads).map (·.record)

/-- `collapseRecordState`; there is no view of no head. -/
def collapseRecordState (heads : List (IdentityRelationEvent T)) : Option (Viewed T) :=
  let sorted := sortBy (compareIds functions) heads
  let byTime := recordsByTime functions sorted
  byTime.getLast?.map fun latest ↦
    { record := merged byTime latest
      nameAppended := nameAppended byTime latest
      conflict :=
        if 1 < (distinct (sorted.map fun event ↦ conflictComparable event.record)).length then
          some ⟨sorted.map (·.id), sorted.map fun event ↦ (event.id, event.record)⟩
        else none }

structure IdentityRecordState (T : Type) where
  heads : List (IdentityRelationEvent T)
  record : Viewed T

def recordState (group : List (IdentityRelationEvent T)) : Option (IdentityRecordState T) :=
  (collapseRecordState functions (headsOf group)).map fun record ↦ ⟨headsOf group, record⟩

/-- The events of a kind of record. -/
def eventsOf (T : Type) [IdentityRecord T] (log : IdentityLog) : List (IdentityRelationEvent T) := log.filterMap event

def grouped (events : List (IdentityRelationEvent T)) :
    InsertionMap JsString (List (IdentityRelationEvent T)) :=
  InsertionMap.groupBy (fun e ↦ some (recordId e.record)) (fun e ↦ e) events

/-- The records of one kind, in the order of their first lines. -/
def recordStates (T : Type) [IdentityRecord T] [DecidableEq T] (log : IdentityLog) : List (IdentityRecordState T) :=
  (grouped (eventsOf T log)).values.filterMap (recordState functions)

def getState (T : Type) [IdentityRecord T] [DecidableEq T] (log : IdentityLog) (id : JsString) :
    Option (IdentityRecordState T) :=
  ((grouped (eventsOf T log)).get? id).bind (recordState functions)

def getRecord (T : Type) [IdentityRecord T] [DecidableEq T] (log : IdentityLog) (id : JsString) : Option (Viewed T) :=
  (getState functions T log id).map (·.record)

/-! ## The lists -/

def compareRecords (a b : Viewed T) : Ordering := functions.localeCompare (recordId a.record) (recordId b.record)

def listRecords (T : Type) [IdentityRecord T] [DecidableEq T] (log : IdentityLog) : List (Viewed T) :=
  sortBy (compareRecords functions) ((recordStates functions T log).map (·.record))

def listIdentityEndpointAccounts (log : IdentityLog) : List (Viewed IdentityEndpointAccount) :=
  listRecords functions IdentityEndpointAccount log

def listIdentityParticipants (log : IdentityLog) : List (Viewed IdentityParticipant) :=
  listRecords functions IdentityParticipant log

def listIdentityRelationCards (log : IdentityLog) : List (Viewed IdentityRelationCard) :=
  listRecords functions IdentityRelationCard log

structure IdentityRelationConflict where
  recordKind : RecordKind
  recordId : JsString
  candidateEventIds : List JsString
deriving DecidableEq

def collectConflicts (T : Type) [IdentityRecord T] [DecidableEq T] (log : IdentityLog) : List IdentityRelationConflict :=
  (recordStates functions T log).filterMap fun item ↦
    item.record.conflict.map fun conflict ↦ ⟨kind T, recordId item.record.record, conflict.conflictEventIds⟩

def IdentityRelationConflict.label (c : IdentityRelationConflict) : JsString := c.recordKind.name ++ 58 :: c.recordId

def listIdentityRelationConflicts (log : IdentityLog) : List IdentityRelationConflict :=
  sortBy (fun a b ↦ functions.localeCompare a.label b.label)
    (collectConflicts functions IdentityEndpointAccount log ++ collectConflicts functions IdentityParticipant log ++
      collectConflicts functions IdentityRelationCard log)

end View

end RabiRoute.IdentityRelations
