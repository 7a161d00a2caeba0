import RabiRoute.AgentRequests.Operations

/-!
# Rules for operations

What holds after each access and each helper of an operation, and what a rollback puts back.
-/

open Collections Interleave

namespace RabiRoute.AgentRequests

open AgentRequestState

variable {s s' : AgentRequestState} {id : JsString} {α β : Type}

/-- What holds after an operation on the maps. -/
abbrev After (operation : Operation α) (s : AgentRequestState)
    (post : Except Failure α → AgentRequestState → Prop) : Prop :=
  Program.After perform operation s post

theorem after_run {operation : Operation α} {post : Except Failure α → AgentRequestState → Prop} (h : After operation s
    post) {outcome : Except Failure α} (hrun : s.run operation = (outcome, s')) : post outcome s' :=
  Program.after_iff.mp h outcome s' hrun

theorem after_bind {operation : Operation α} {f : α → Operation β} {post : Except Failure β → AgentRequestState → Prop} :
    After (operation >>= f) s post ↔
      After operation s fun outcome s' =>
        match outcome with
        | .ok a => After (f a) s' post
        | .error failure => post (.error failure) s' := by
  refine Program.after_handle.trans (iff_of_eq (congrArg _ (funext fun outcome => funext fun s' => ?_)))
  cases outcome <;> rfl

/-! ## Accesses -/

section Accesses

variable {post : Except Failure α → AgentRequestState → Prop}

@[simp] theorem after_getRequest {f : Option AgentRequestRecord → Operation α} :
    After (Operation.getRequest id >>= f) s post ↔ After (f (s.requests.get? id)) s post := Iff.rfl

@[simp] theorem after_requestEntries {f : List (JsString × AgentRequestRecord) → Operation α} :
    After (Operation.requestEntries >>= f) s post ↔ After (f s.requests.entries) s post := Iff.rfl

@[simp] theorem after_assignRequest {change : AgentRequestRecord → AgentRequestRecord} {f : Unit → Operation α} :
    After (Operation.assignRequest id change >>= f) s post ↔ After (f ()) (s.assignRequest id change) post := Iff.rfl

@[simp] theorem after_setRequest {record : AgentRequestRecord} {f : Unit → Operation α} :
    After (Operation.setRequest id record >>= f) s post ↔
      After (f ()) { s with requests := s.requests.set id record } post := Iff.rfl

@[simp] theorem after_deleteRequest {f : Unit → Operation α} :
    After (Operation.deleteRequest id >>= f) s post ↔
      After (f ()) { s with requests := s.requests.erase id } post := Iff.rfl

@[simp] theorem after_getDelivery {f : Option PreparedEndpointDelivery → Operation α} :
    After (Operation.getDelivery id >>= f) s post ↔ After (f (s.deliveries.get? id)) s post := Iff.rfl

@[simp] theorem after_hasDelivery {f : Bool → Operation α} :
    After (Operation.hasDelivery id >>= f) s post ↔ After (f (s.deliveries.get? id).isSome) s post := Iff.rfl

@[simp] theorem after_deliveryEntries {f : List (JsString × PreparedEndpointDelivery) → Operation α} :
    After (Operation.deliveryEntries >>= f) s post ↔ After (f s.deliveries.entries) s post := Iff.rfl

@[simp] theorem after_assignDelivery {change : PreparedEndpointDelivery → PreparedEndpointDelivery}
    {f : Unit → Operation α} :
    After (Operation.assignDelivery id change >>= f) s post ↔ After (f ()) (s.assignDelivery id change) post := Iff.rfl

@[simp] theorem after_setDelivery {delivery : PreparedEndpointDelivery} {f : Unit → Operation α} :
    After (Operation.setDelivery id delivery >>= f) s post ↔
      After (f ()) { s with deliveries := s.deliveries.set id delivery } post := Iff.rfl

@[simp] theorem after_unavailableDeliveryIds {f : List JsString → Operation α} :
    After (Operation.unavailableDeliveryIds >>= f) s post ↔ After (f s.unavailableDeliveryIds) s post := Iff.rfl

@[simp] theorem after_ofExcept {β : Type} {x : Except Failure β} {f : β → Operation α} :
    After (Operation.ofExcept x >>= f) s post ↔
      match x with
      | .ok b => After (f b) s post
      | .error failure => post (.error failure) s := by
  cases x <;> exact Iff.rfl

@[simp] theorem after_raiseIf {condition : Bool} {failure : Failure} {f : Unit → Operation α} :
    After (Operation.raiseIf condition failure >>= f) s post ↔
      if condition then post (.error failure) s else After (f ()) s post := by
  cases condition <;> exact Iff.rfl

end Accesses

/-! ## Assignments -/

theorem assignRequest_eq {change : AgentRequestRecord → AgentRequestRecord} {record : AgentRequestRecord}
    (h : s.requests.get? id = some record) :
    s.assignRequest id change = { s with requests := s.requests.set id (change record) } := by
  simp only [assignRequest, h]

theorem assignDelivery_eq {change : PreparedEndpointDelivery → PreparedEndpointDelivery}
    {delivery : PreparedEndpointDelivery} (h : s.deliveries.get? id = some delivery) :
    s.assignDelivery id change = { s with deliveries := s.deliveries.set id (change delivery) } := by
  simp only [assignDelivery, h]

theorem get?_assignRequest {change : AgentRequestRecord → AgentRequestRecord} (id' : JsString) :
    (s.assignRequest id change).requests.get? id' =
      (s.requests.get? id').map fun record => if id' = id then change record else record := by
  unfold assignRequest
  split
  case h_1 record hrecord =>
    rw [InsertionMap.get?_set]
    by_cases hid : id' = id
    · rw [if_pos hid, hid, hrecord, Option.map_some, if_pos rfl]
    · simp only [hid, if_false, Option.map_id']
  case h_2 hnone =>
    by_cases hid : id' = id
    · rw [hid, hnone, Option.map_none]
    · simp only [hid, if_false, Option.map_id']

theorem get?_assignDelivery {change : PreparedEndpointDelivery → PreparedEndpointDelivery} (id' : JsString) :
    (s.assignDelivery id change).deliveries.get? id' =
      (s.deliveries.get? id').map fun delivery => if id' = id then change delivery else delivery := by
  unfold assignDelivery
  split
  case h_1 delivery hdelivery =>
    rw [InsertionMap.get?_set]
    by_cases hid : id' = id
    · rw [if_pos hid, hid, hdelivery, Option.map_some, if_pos rfl]
    · simp only [hid, if_false, Option.map_id']
  case h_2 hnone =>
    by_cases hid : id' = id
    · rw [hid, hnone, Option.map_none]
    · simp only [hid, if_false, Option.map_id']

/-! ## Helpers -/

namespace AgentRequestState

/-- The record of an id that a preparation may name. -/
def named (s : AgentRequestState) (id : Option JsString) : Option AgentRequestRecord :=
  (presentText id).bind s.requests.get?

def assignNamed (s : AgentRequestState) (id : Option JsString) (change : AgentRequestRecord → AgentRequestRecord) :
    AgentRequestState :=
  match presentText id with
  | none => s
  | some id => s.assignRequest id change

def before (s : AgentRequestState) (ids : List (Option JsString)) : List (JsString × AgentRequestRecord) :=
  ids.filterMap fun id ↦ (presentText id).bind fun id ↦ (s.requests.get? id).map fun record ↦ (id, record)

/-- A request, a delivery or the evidence of one holds the id. -/
def holdsDeliveryId (s : AgentRequestState) (deliveryId : JsString) : Bool :=
  (s.deliveries.get? deliveryId).isSome || decide (deliveryId ∈ s.unavailableDeliveryIds) ||
    s.requests.entries.any fun entry ↦
      entry.2.deliveryId = deliveryId || entry.2.pendingResponseDeliveryId = some deliveryId ||
        entry.2.response.any fun response ↦ response.deliveryId = deliveryId

/-- The delivery that `assertEndpointDeliveryActive` accepts. -/
def activeDelivery (functions : Functions) (s : AgentRequestState) (deliveryId : JsString) :
    Except Failure PreparedEndpointDelivery :=
  match s.deliveries.get? deliveryId with
  | none => fail "Endpoint delivery is missing or cancelled."
  | some delivery =>
    if delivery.state = .cancelled then fail "Endpoint delivery is missing or cancelled."
    else
      match requestReservationLost functions deliveryId delivery.preparation
          (s.named delivery.preparation.requestId) with
      | .error failure => .error failure
      | .ok lost =>
        if lost || replyReservationLost deliveryId delivery.preparation
            (s.named delivery.preparation.inReplyToRequestId) then
          fail ("Endpoint request was cancelled or its exact reservation changed; execution and " ++
            "reconciliation are forbidden.")
        else .ok delivery

/-- The error that `persist` throws. -/
def writeFailure (s : AgentRequestState) (write : Option Failure) : Option Failure :=
  match s.deliveryEvidenceUnavailableReason with
  | some reason => some (.error reason)
  | none => write

def written (s : AgentRequestState) : AgentRequestState := { s with file := some s.toFile }

theorem persist_eq (write : Option Failure) :
    s.persist write =
      (s.writeFailure write, if (s.writeFailure write).isNone then s.written else s) := by
  unfold persist writeFailure
  split
  case h_1 hreason => simp only [hreason, Option.isNone_some, Bool.false_eq_true, if_false]
  case h_2 failure hreason => simp only [hreason, Option.isNone_some, Bool.false_eq_true, if_false]
  case h_3 hreason => simp only [hreason, Option.isNone_none, if_true, written]

end AgentRequestState

section Helpers

variable {post : Except Failure α → AgentRequestState → Prop}

@[simp] theorem after_getNamedRequest {name : Option JsString} {f : Option AgentRequestRecord → Operation α} :
    After (getNamedRequest name >>= f) s post ↔ After (f (s.named name)) s post := by
  unfold getNamedRequest named
  cases presentText name <;> exact Iff.rfl

@[simp] theorem after_requestsBefore {names : List (Option JsString)} {f : List (JsString × AgentRequestRecord) →
    Operation α} : After (requestsBefore names >>= f) s post ↔ After (f (s.before names)) s post := by
  induction names generalizing f with
  | nil => exact Iff.rfl
  | cons name names ih =>
    unfold requestsBefore
    split
    case h_1 hname => simp only [ih, before, List.filterMap_cons, hname, Option.bind_none]
    case h_2 id hname =>
      rw [bind_assoc, after_getRequest]
      cases hrecord : s.requests.get? id with
      | none => simp only [ih, before, List.filterMap_cons, hname, Option.bind_some, hrecord, Option.map_none]
      | some record =>
        simp only [bind_assoc, pure_bind, ih, before, List.filterMap_cons, hname, Option.bind_some, hrecord,
          Option.map_some]

@[simp] theorem after_hasEndpointDeliveryReservation {f : Bool → Operation α} :
    After (hasEndpointDeliveryReservation id >>= f) s post ↔ After (f (s.holdsDeliveryId id)) s post := by
  unfold hasEndpointDeliveryReservation holdsDeliveryId
  simp only [bind_assoc, after_hasDelivery, after_unavailableDeliveryIds]
  cases hheld : (s.deliveries.get? id).isSome || decide (id ∈ s.unavailableDeliveryIds) with
  | true => exact Iff.rfl
  | false => simp only [Bool.false_eq_true, if_false, bind_assoc, after_requestEntries, pure_bind, Bool.false_or]

@[simp] theorem after_assertEndpointDeliveryActive {functions : Functions} {f : PreparedEndpointDelivery → Operation α} :
    After (assertEndpointDeliveryActive functions id >>= f) s post ↔
      match s.activeDelivery functions id with
      | .ok delivery => After (f delivery) s post
      | .error failure => post (.error failure) s := by
  unfold assertEndpointDeliveryActive activeDelivery
  rw [bind_assoc, after_getDelivery]
  cases s.deliveries.get? id with
  | none => exact Iff.rfl
  | some delivery =>
    simp only [bind_assoc, after_raiseIf, after_getNamedRequest, after_ofExcept, pure_bind, decide_eq_true_eq]
    split
    · exact Iff.rfl
    · cases requestReservationLost functions id delivery.preparation (s.named delivery.preparation.requestId) with
      | error failure => exact Iff.rfl
      | ok lost =>
        dsimp only
        split <;> exact Iff.rfl

@[simp] theorem after_restoreRequests {records : List (JsString × AgentRequestRecord)} {f : Unit → Operation α} :
    After (Operation.restoreRequests records >>= f) s post ↔
      After (f ()) { s with requests := s.requests.setAll records } post := by
  induction records generalizing s with
  | nil => exact Iff.rfl
  | cons entry records ih =>
    unfold Operation.restoreRequests
    rw [bind_assoc, after_setRequest]
    exact ih

@[simp] theorem after_restoreDeliveries {deliveries : List PreparedEndpointDelivery} {f : Unit → Operation α} :
    After (restoreDeliveries deliveries >>= f) s post ↔
      After (f ()) { s with
        deliveries := s.deliveries.setAll (deliveries.map fun delivery => (delivery.deliveryId, delivery)) } post := by
  induction deliveries generalizing s with
  | nil => exact Iff.rfl
  | cons delivery deliveries ih =>
    unfold restoreDeliveries
    rw [bind_assoc, after_setDelivery]
    exact ih

/-- Assign the deliveries one after another. -/
def AgentRequestState.assignDeliveries (s : AgentRequestState)
    (change : PreparedEndpointDelivery → PreparedEndpointDelivery) (ids : List JsString) : AgentRequestState :=
  ids.foldl (fun s id ↦ s.assignDelivery id change) s

@[simp] theorem after_assignDeliveries {change : PreparedEndpointDelivery → PreparedEndpointDelivery}
    {ids : List JsString} {f : Unit → Operation α} :
    After (assignDeliveries change ids >>= f) s post ↔ After (f ()) (s.assignDeliveries change ids) post := by
  induction ids generalizing s with
  | nil => exact Iff.rfl
  | cons id ids ih =>
    unfold assignDeliveries
    rw [bind_assoc, after_assignDelivery]
    exact ih

/-- A write that succeeds goes on in the written state; one that fails rolls back. -/
theorem after_persistOr {env : Env} {rollback : Operation Unit} {f : Unit → Operation α} (hok : s.writeFailure env.write
    = none → After (f ()) s.written post) (hfail : After rollback s fun _ s' => ∀ failure, post (.error failure) s') :
    After (Operation.persistOr env rollback >>= f) s post := by
  have haccess : ∀ g : Option Failure → Operation α,
      After (Operation.access (.persist env.write) >>= g) s post ↔
        After (g (s.writeFailure env.write)) (if (s.writeFailure env.write).isNone then s.written else s) post := by
    intro g
    show After (g (s.persist env.write).1) (s.persist env.write).2 post ↔ _
    rw [persist_eq]
  unfold Operation.persistOr
  rw [bind_assoc]
  refine (haccess _).mpr ?_
  cases hwrite : s.writeFailure env.write with
  | none =>
    rw [Option.isNone_none, if_pos rfl]
    exact hok hwrite
  | some failure =>
    rw [Option.isNone_some, if_neg Bool.false_ne_true, bind_assoc, after_bind]
    refine Program.After.mono hfail fun outcome s' h => ?_
    cases outcome with
    | ok _ => exact h failure
    | error failure => exact h failure

end Helpers

end RabiRoute.AgentRequests
