import RabiRoute.AgentRequests.Party
import RabiRoute.Collections.InsertionMap
import RabiRoute.Interleave.Sequential

/-!
# The ledger of agent requests

The records of `AgentRequestState` and the accesses that its operations make to them.  An operation is a
program of accesses, so that the same operation can be run on the maps themselves and on the drafts of a
transaction.
-/

open Collections Interleave

namespace RabiRoute.AgentRequests

inductive AgentResponsePolicy where
  | required
  | none
deriving DecidableEq

inductive AgentRequestStatus where
  | pending_delivery
  | awaiting_response
  | responded
  | cancelled
deriving DecidableEq

def AgentRequestStatus.text : AgentRequestStatus → JsString
  | .pending_delivery => js "pending_delivery"
  | .awaiting_response => js "awaiting_response"
  | .responded => js "responded"
  | .cancelled => js "cancelled"

structure AgentCommunicationPreparation where
  deliveryId : JsString
  requestId : Option JsString := none
  inReplyToRequestId : Option JsString := none
  responsePolicy : AgentResponsePolicy
  responseInstruction : Option JsString := none
  result : Option JsString := none
  nextAction : Option JsString := none
  source : AgentRequestParty
  target : AgentRequestParty
  messageProcessingRequirementId : Option JsString := none
  planId : Option JsString := none

structure PrepareAgentCommunicationInput where
  deliveryId : Option JsString := none
  inReplyToRequestId : Option JsString := none
  responsePolicy : Option AgentResponsePolicy
  responseInstruction : Option JsString := none
  result : Option JsString := none
  nextAction : Option JsString := none
  source : AgentRequestParty
  target : AgentRequestParty
  messageProcessingRequirementId : Option JsString := none
  planId : Option JsString := none

structure AgentRequestResponse where
  deliveryId : JsString
  by_ : AgentRequestParty
  result : JsString
  nextAction : JsString
  respondedAt : JsString

structure ResponseEvidence where
  promptHash : JsString
  preparation : AgentCommunicationPreparation

structure AgentRequestRecord where
  id : JsString
  deliveryId : JsString
  status : AgentRequestStatus
  source : AgentRequestParty
  sourceHistory : Option (List AgentRequestParty) := none
  target : AgentRequestParty
  targetHistory : Option (List AgentRequestParty) := none
  responseInstruction : JsString
  messageProcessingRequirementId : Option JsString := none
  planId : Option JsString := none
  createdAt : JsString
  deliveredAt : Option JsString := none
  deliveryAction : Option JsString := none
  deliveryTransport : Option JsString := none
  pendingResponseDeliveryId : Option JsString := none
  pendingResponseEvidence : Option ResponseEvidence := none
  response : Option AgentRequestResponse := none
  cancelledAt : Option JsString := none
  cancelReason : Option JsString := none
  updatedAt : JsString

inductive EndpointDeliveryState where
  | prepared
  | dispatching
  | committed
  | cancelled
deriving DecidableEq

structure EndpointDeliveryReceipt where
  deliveryId : JsString
  generation : JsString
  endpoint : AgentRequestEndpoint
  promptHash : JsString
  executionOptionsHash : JsString
  accepted : Bool
  action : JsString
  transport : JsString

structure EndpointDeliveryNoFrameProof where
  deliveryId : JsString
  generation : JsString
  promptHash : JsString
  executionOptionsHash : JsString
  dispatchAttemptId : JsString
  endpoint : AgentRequestEndpoint
  attemptId : JsString
  attemptSequence : Int
  observedAt : JsString

structure DeliveryError where
  code : Option JsString
  message : JsString

structure PreparedEndpointDelivery where
  deliveryId : JsString
  generation : JsString
  source : AgentDeliverySource
  target : AgentRequestEndpoint
  prompt : JsString
  promptHash : JsString
  executionOptionsHash : JsString
  executionOptions : EndpointExecutionOptions
  preparation : AgentCommunicationPreparation
  state : EndpointDeliveryState
  createdAt : Option JsString := none
  updatedAt : Option JsString := none
  lastAttemptAt : Option JsString := none
  nextAttemptAt : Option JsString := none
  attemptCount : Option Nat := none
  retryCount : Option Nat := none
  dispatchAttemptId : Option JsString := none
  lastNoFrameProof : Option EndpointDeliveryNoFrameProof := none
  lastError : Option DeliveryError := none
  blockedReason : Option JsString := none
  callerDeliveryId : Option JsString := none
  requestHash : Option JsString := none
  receipt : Option EndpointDeliveryReceipt := none

/-- What a write leaves in the state file: the records with the quarantined ones among them. -/
structure AgentRequestStoreFile where
  requests : InsertionMap JsString AgentRequestRecord
  deliveries : InsertionMap JsString PreparedEndpointDelivery
  unavailableDeliveryIds : List JsString := []

/-- `AgentRequestState` and the state file. -/
structure AgentRequestState where
  requests : InsertionMap JsString AgentRequestRecord := .empty
  deliveries : InsertionMap JsString PreparedEndpointDelivery := .empty
  unavailableDeliveryIds : List JsString := []
  quarantinedDeliveries : InsertionMap JsString PreparedEndpointDelivery := .empty
  quarantinedRequests : InsertionMap JsString AgentRequestRecord := .empty
  deliveryEvidenceUnavailableReason : Option JsString := none
  file : Option AgentRequestStoreFile := none

/-! ## Accesses -/

/-- The accesses of an operation.  `assign` writes fields of the record that stands under the key, and
`has` looks for a key without reading its record. -/
inductive Access where
  | getRequest (id : JsString)
  | hasRequest (id : JsString)
  | requestEntries
  | assignRequest (id : JsString) (change : AgentRequestRecord → AgentRequestRecord)
  | setRequest (id : JsString) (record : AgentRequestRecord)
  | deleteRequest (id : JsString)
  | getDelivery (id : JsString)
  | hasDelivery (id : JsString)
  | deliveryEntries
  | assignDelivery (id : JsString) (change : PreparedEndpointDelivery → PreparedEndpointDelivery)
  | setDelivery (id : JsString) (delivery : PreparedEndpointDelivery)
  | deleteDelivery (id : JsString)
  | unavailableDeliveryIds
  | quarantinedRequests
  | quarantinedDeliveries
  | persist (write : Option Failure)

/-- What an access answers; `persist` answers the error that it throws. -/
def Access.Answer : Access → Type
  | getRequest _ => Option AgentRequestRecord
  | hasRequest _ | hasDelivery _ => Bool
  | requestEntries => List (JsString × AgentRequestRecord)
  | getDelivery _ => Option PreparedEndpointDelivery
  | deliveryEntries => List (JsString × PreparedEndpointDelivery)
  | assignRequest _ _ | setRequest _ _ | deleteRequest _ | assignDelivery _ _ | setDelivery _ _ | deleteDelivery _ => Unit
  | unavailableDeliveryIds => List JsString
  | quarantinedRequests => List AgentRequestRecord
  | quarantinedDeliveries => List PreparedEndpointDelivery
  | persist _ => Option Failure

abbrev Operation (α : Type) := Program Access Access.Answer Failure α

namespace AgentRequestState

/-- What `persist` writes. -/
def toFile (s : AgentRequestState) : AgentRequestStoreFile where
  requests := s.requests.setAll s.quarantinedRequests.entries
  deliveries := s.deliveries.setAll s.quarantinedDeliveries.entries
  unavailableDeliveryIds := s.unavailableDeliveryIds

def persist (s : AgentRequestState) (write : Option Failure) : Option Failure × AgentRequestState :=
  match s.deliveryEvidenceUnavailableReason, write with
  | some reason, _ => (some (.error reason), s)
  | none, some failure => (some failure, s)
  | none, none => (none, { s with file := some s.toFile })

def assignRequest (s : AgentRequestState) (id : JsString) (change : AgentRequestRecord → AgentRequestRecord) :
    AgentRequestState :=
  match s.requests.get? id with
  | some record => { s with requests := s.requests.set id (change record) }
  | none => s

def assignDelivery (s : AgentRequestState) (id : JsString)
    (change : PreparedEndpointDelivery → PreparedEndpointDelivery) : AgentRequestState :=
  match s.deliveries.get? id with
  | some delivery => { s with deliveries := s.deliveries.set id (change delivery) }
  | none => s

/-- Each access on the maps themselves. -/
def perform : (access : Access) → AgentRequestState → access.Answer × AgentRequestState
  | .getRequest id, s => (s.requests.get? id, s)
  | .hasRequest id, s => ((s.requests.get? id).isSome, s)
  | .requestEntries, s => (s.requests.entries, s)
  | .assignRequest id change, s => ((), s.assignRequest id change)
  | .setRequest id record, s => ((), { s with requests := s.requests.set id record })
  | .deleteRequest id, s => ((), { s with requests := s.requests.erase id })
  | .getDelivery id, s => (s.deliveries.get? id, s)
  | .hasDelivery id, s => ((s.deliveries.get? id).isSome, s)
  | .deliveryEntries, s => (s.deliveries.entries, s)
  | .assignDelivery id change, s => ((), s.assignDelivery id change)
  | .setDelivery id delivery, s => ((), { s with deliveries := s.deliveries.set id delivery })
  | .deleteDelivery id, s => ((), { s with deliveries := s.deliveries.erase id })
  | .unavailableDeliveryIds, s => (s.unavailableDeliveryIds, s)
  | .quarantinedRequests, s => (s.quarantinedRequests.values, s)
  | .quarantinedDeliveries, s => (s.quarantinedDeliveries.values, s)
  | .persist write, s => s.persist write

/-- Run an operation on the maps themselves. -/
def run {α : Type} (s : AgentRequestState) (operation : Operation α) : Except Failure α × AgentRequestState :=
  Program.run perform operation s

end AgentRequestState

end RabiRoute.AgentRequests
