import RabiRoute.AgentRequests.Rules

/-!
# What the operations on deliveries do

An operation that throws leaves the ledger as it was.  One that returns has met its checks, and the ledger
it leaves is written to the state file.  Each operation is unfolded here once.
-/

open Collections Interleave

namespace RabiRoute.AgentRequests

open AgentRequestState

variable {functions : Functions} {env : Env} {s s' : AgentRequestState} {id : JsString} {α : Type}

/-- The same records stand in the ledger and in the state file. -/
structure Alike (s s' : AgentRequestState) : Prop where
  requests : ∀ id, s'.requests.get? id = s.requests.get? id
  deliveries : ∀ id, s'.deliveries.get? id = s.deliveries.get? id
  unavailable : s'.unavailableDeliveryIds = s.unavailableDeliveryIds
  quarantinedDeliveries : s'.quarantinedDeliveries = s.quarantinedDeliveries
  quarantinedRequests : s'.quarantinedRequests = s.quarantinedRequests
  reason : s'.deliveryEvidenceUnavailableReason = s.deliveryEvidenceUnavailableReason
  file : s'.file = s.file

theorem Alike.refl (s : AgentRequestState) : Alike s s := ⟨fun _ => rfl, fun _ => rfl, rfl, rfl, rfl, rfl, rfl⟩

/-- An operation has this effect when it returns, and none when it throws. -/
def Outcome (s : AgentRequestState) (effect : α → AgentRequestState → Prop) :
    Except Failure α → AgentRequestState → Prop
  | .ok a, s' => effect a s'
  | .error _, s' => Alike s s'

theorem after_persistOr_tail {rollback : Operation Unit} {post : Except Failure Unit → AgentRequestState → Prop} (hok :
    s.writeFailure env.write = none → post (.ok ()) s.written) (hfail : After rollback s fun _ s' => ∀ failure, post
    (.error failure) s') : After (Operation.persistOr env rollback) s post := by
  rw [← bind_pure (Operation.persistOr env rollback)]
  exact after_persistOr hok hfail

/-! ## Rollbacks -/

/-- A delivery that was assigned is put back. -/
theorem Alike.restoreDelivery {delivery delivery' : PreparedEndpointDelivery}
    (h : s.deliveries.get? id = some delivery) :
    Alike s { s with deliveries := (s.deliveries.set id delivery').set id delivery } := by
  refine ⟨fun _ => rfl, fun id' => ?_, rfl, rfl, rfl, rfl, rfl⟩
  show ((s.deliveries.set id delivery').set id delivery).get? id' = _
  rw [InsertionMap.get?_set, InsertionMap.get?_set]
  split
  case isTrue hid => rw [hid, h]
  case isFalse => rfl

/-- An operation on one delivery assigns it, and puts it back when the write fails. -/
theorem after_changeDelivery {delivery : PreparedEndpointDelivery}
    {change : PreparedEndpointDelivery → PreparedEndpointDelivery} {f : Unit → Operation α}
    {effect : α → AgentRequestState → Prop} (h : s.deliveries.get? id = some delivery)
    (hok : s.writeFailure env.write = none →
      After (f ()) { s with deliveries := s.deliveries.set id (change delivery) }.written (Outcome s effect)) :
    After (do
      Operation.assignDelivery id change
      Operation.persistOr env (Operation.setDelivery id delivery) >>= f) s (Outcome s effect) := by
  rw [after_assignDelivery, assignDelivery_eq h]
  refine after_persistOr hok ?_
  intro failure
  exact .restoreDelivery h

/-! ## Binding -/

/-- The checks of `bindEndpointDelivery`. -/
structure Bindable (functions : Functions) (s : AgentRequestState) (delivery : PreparedEndpointDelivery) : Prop where
  source : ∃ source, normalizeAgentDeliverySource delivery.source = .ok source
  connection : checkConnectionSource delivery = .ok ()
  absent : s.deliveries.get? delivery.deliveryId = none
  prepared : delivery.state = .prepared
  prompt : delivery.promptHash = agentDeliveryPromptHash functions delivery.prompt
  options : endpointExecutionOptionsHash functions delivery.executionOptions = .ok delivery.executionOptionsHash
  deliveryId : delivery.preparation.deliveryId = delivery.deliveryId
  target : sameEndpoint? (some delivery.target) delivery.preparation.target.endpoint = true
  session : delivery.target.sessionId = delivery.preparation.target.threadId

theorem after_bindEndpointDelivery {delivery : PreparedEndpointDelivery} :
    After (bindEndpointDelivery functions env delivery) s (Outcome s fun _ s' =>
      Bindable functions s delivery ∧
        s' = { s with deliveries := s.deliveries.set delivery.deliveryId (bound env delivery) }.written) := by
  unfold bindEndpointDelivery
  rw [after_ofExcept]
  split
  case h_2 => exact .refl s
  case h_1 source hsource =>
    rw [after_ofExcept]
    split
    case h_2 => exact .refl s
    case h_1 hconnection =>
      rw [after_hasDelivery, after_raiseIf]
      split
      · exact .refl s
      case isFalse hfirst =>
        rw [after_ofExcept]
        split
        case h_2 => exact .refl s
        case h_1 optionsHash hoptions =>
          rw [after_raiseIf]
          split
          · exact .refl s
          case isFalse hsecond =>
            simp only [Bool.or_eq_true, decide_eq_true_eq, Bool.not_eq_true', not_or, Option.not_isSome_iff_eq_none,
              ne_eq, not_not, Bool.not_eq_false] at hfirst hsecond
            obtain ⟨⟨habsent, hprepared⟩, hprompt⟩ := hfirst
            obtain ⟨⟨⟨hhash, hid⟩, htarget⟩, hsession⟩ := hsecond
            rw [after_setDelivery]
            refine after_persistOr_tail (fun _ => ⟨?_, rfl⟩) ?_
            · exact ⟨⟨source, hsource⟩, hconnection, habsent, hprepared, hprompt, hhash ▸ hoptions, hid, htarget,
                hsession⟩
            · -- the rollback deletes the delivery that was not there before
              intro failure
              refine ⟨fun _ => rfl, fun id' => ?_, rfl, rfl, rfl, rfl, rfl⟩
              show ((s.deliveries.set delivery.deliveryId _).erase delivery.deliveryId).get? id' = _
              rw [InsertionMap.get?_erase, InsertionMap.get?_set]
              split
              case isTrue hid' => rw [hid', habsent]
              case isFalse => rfl

/-! ## Attempts -/

/-- `activeDelivery` accepts a delivery of the ledger that is not cancelled. -/
theorem activeDelivery_ok {delivery : PreparedEndpointDelivery} (h : s.activeDelivery functions id = .ok delivery) :
    s.deliveries.get? id = some delivery ∧ delivery.state ≠ .cancelled := by
  unfold activeDelivery at h
  split at h
  · cases h
  case h_2 found hfound =>
    split at h
    · cases h
    case isFalse hstate =>
      split at h
      · cases h
      · split at h
        · cases h
        · obtain rfl := Except.ok.inj h
          exact ⟨hfound, hstate⟩

theorem after_markEndpointDispatching :
    After (markEndpointDispatching functions env id) s (Outcome s fun attempt s' =>
      attempt = env.randomUUID 0 ∧ ∃ delivery, s.activeDelivery functions id = .ok delivery ∧
        delivery.state = .prepared ∧
          s' = { s with deliveries := s.deliveries.set id (dispatched env delivery) }.written) := by
  unfold markEndpointDispatching
  rw [after_assertEndpointDeliveryActive]
  split
  case h_2 => exact .refl s
  case h_1 delivery hactive =>
    rw [after_raiseIf]
    split
    · exact .refl s
    case isFalse hstate =>
      refine after_changeDelivery (activeDelivery_ok hactive).1 fun _ => ?_
      exact ⟨rfl, delivery, hactive, by simpa using hstate, rfl⟩

/-- The delivery may still take note of a failure. -/
def Notable (s : AgentRequestState) (id : JsString) (delivery : PreparedEndpointDelivery) : Prop :=
  s.deliveries.get? id = some delivery ∧ delivery.state ≠ .committed ∧ delivery.state ≠ .cancelled

theorem after_noteEndpointDeliveryFailure {message : JsString} {code : Option JsString} {blocked : Bool} :
    After (noteEndpointDeliveryFailure env id message code blocked) s (Outcome s fun _ s' =>
      s' = s ∨ ∃ delivery, Notable s id delivery ∧
        s' = { s with deliveries := s.deliveries.set id (failed env message code blocked delivery) }.written) := by
  unfold noteEndpointDeliveryFailure
  rw [after_getDelivery]
  split
  · exact .inl rfl
  case h_2 delivery hdelivery =>
    split
    · exact .inl rfl
    case isFalse hstate =>
      rw [← bind_pure (Operation.persistOr _ _)]
      refine after_changeDelivery hdelivery fun _ => ?_
      simp only [Bool.or_eq_true, decide_eq_true_eq, not_or] at hstate
      exact .inr ⟨delivery, ⟨hdelivery, hstate⟩, rfl⟩

/-- The delivery is proven unsent. -/
structure ProvenUnsent (functions : Functions) (s : AgentRequestState) (id : JsString)
    (proof : Option EndpointDeliveryNoFrameProof) (delivery : PreparedEndpointDelivery) : Prop where
  found : s.deliveries.get? id = some delivery
  dispatching : delivery.state = .dispatching
  receipt : delivery.receipt = none
  proof : checkNoFrameProof functions delivery proof = .ok ()

theorem after_markEndpointNotSent {proof : Option EndpointDeliveryNoFrameProof} :
    After (markEndpointNotSent functions env id proof) s (Outcome s fun _ s' =>
      s' = s ∨ ∃ delivery, ProvenUnsent functions s id proof delivery ∧
        s' = { s with deliveries := s.deliveries.set id (unsent env proof delivery) }.written) := by
  unfold markEndpointNotSent
  rw [after_getDelivery]
  split
  · exact .refl s
  case h_2 delivery hdelivery =>
    split
    · cases checkNoFrameProof functions delivery proof with
      | ok _ => exact .inl rfl
      | error failure => exact .refl s
    · rw [after_raiseIf]
      split
      · exact .refl s
      case isFalse hstate =>
        rw [after_ofExcept]
        split
        case h_2 => exact .refl s
        case h_1 hproof =>
          rw [← bind_pure (Operation.persistOr _ _)]
          refine after_changeDelivery hdelivery fun _ => ?_
          simp only [Bool.or_eq_true, decide_eq_true_eq, not_or, ne_eq, not_not, Bool.not_eq_true,
            Option.isSome_eq_false_iff, Option.isNone_iff_eq_none] at hstate
          exact .inr ⟨delivery, ⟨hdelivery, hstate.1, hstate.2, hproof⟩, rfl⟩

end RabiRoute.AgentRequests
