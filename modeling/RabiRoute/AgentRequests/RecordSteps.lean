import RabiRoute.AgentRequests.Calls

/-!
# What a call makes of each record

`RequestStep` and `DeliveryStep` say once what a call can make of one request and of one delivery.  What
holds of every request or delivery of a run is read off their cases.
-/

open Collections Interleave Transitions

namespace RabiRoute.AgentRequests

open AgentRequestState

variable {functions : Functions} {env : Env} {s s' : AgentRequestState} {id : JsString} {call : Call}

/-- What a call can make of the request that stands under an id. -/
inductive RequestStep (functions : Functions) (env : Env) (call : Call) (id : JsString) :
    Option AgentRequestRecord → Option AgentRequestRecord → Prop where
  | kept (record : Option AgentRequestRecord) : RequestStep functions env call id record record
  | opened {input : PrepareAgentCommunicationInput} {prepared : PreparedInput} : call = .prepare input →
      prepareInput functions env input = .ok prepared →
      RequestStep functions env call id none (some (opened env prepared id))
  | reserved {input : PrepareAgentCommunicationInput} {prepared : PreparedInput} {record : AgentRequestRecord} :
      prepareInput functions env input = .ok prepared → checkReply record prepared = .ok () →
      RequestStep functions env call id (some record) (some (reserved env prepared.deliveryId record))
  | answered {response : AgentRequestResponse} {record : AgentRequestRecord} :
      record.status = .awaiting_response → presentText record.pendingResponseDeliveryId = none →
      RequestStep functions env call id (some record) (some (answered response record))
  | evidenced {preparation : AgentCommunicationPreparation} {prompt : JsString} {record : AgentRequestRecord} :
      RequestStep functions env call id (some record) (some (evidenced functions preparation prompt record))
  | replied {preparation : AgentCommunicationPreparation} {record : AgentRequestRecord} :
      record.pendingResponseDeliveryId = some preparation.deliveryId →
      RequestStep functions env call id (some record) (some (replied env preparation record))
  | delivered {receipt : CommitReceipt} {record : AgentRequestRecord} :
      RequestStep functions env call id (some record) (some (delivered env receipt record))
  | released {deliveryId : JsString} {record : AgentRequestRecord} :
      record.pendingResponseDeliveryId = some deliveryId →
      RequestStep functions env call id (some record) (some (released env record))
  | deleted {preparation : AgentCommunicationPreparation} {record : AgentRequestRecord} : call = .abort preparation →
      record.status = .pending_delivery → RequestStep functions env call id (some record) none
  | withdrawn {reason : Option JsString} {record : AgentRequestRecord} : record.status ≠ .responded →
      record.status ≠ .cancelled → RequestStep functions env call id (some record) (some (withdrawn env reason record))
  | rebound {record record' : AgentRequestRecord} : Rebound functions env record record' →
      RequestStep functions env call id (some record) (some record')

/-! ## Each call takes each request one step -/

/-- A record that is set in the place of another one. -/
theorem RequestStep.set {record record' : AgentRequestRecord} (hrecord : s.requests.get? id = some record)
    (h : RequestStep functions env call id (some record) (some record')) (id' : JsString) :
    RequestStep functions env call id' (s.requests.get? id') ((s.requests.set id record').get? id') := by
  rw [InsertionMap.get?_set]
  split
  case isTrue hid =>
    subst hid
    rw [hrecord]
    exact h
  case isFalse => exact .kept _

theorem get?_reservedFor (env : Env) {prepared : PreparedInput} (hreply : AcceptsReply s prepared) (id : JsString) :
    (s.reservedFor env prepared).requests.get? id = s.requests.get? id ∨
      ∃ record, s.requests.get? id = some record ∧ checkReply record prepared = .ok () ∧
        (s.reservedFor env prepared).requests.get? id = some (reserved env prepared.deliveryId record) := by
  unfold reservedFor
  unfold AcceptsReply at hreply
  cases hname : prepared.inReplyToRequestId with
  | none => exact .inl rfl
  | some name =>
    rw [hname] at hreply
    obtain ⟨record, hrecord, hcheck⟩ := hreply
    dsimp only
    rw [get?_assignRequest]
    by_cases hid : id = name
    · subst hid
      exact .inr ⟨record, hrecord, hcheck, by rw [hrecord, Option.map_some, if_pos rfl]⟩
    · exact .inl (by simp only [hid, if_false, Option.map_id'])

theorem get?_openedFor (env : Env) (s : AgentRequestState) (prepared : PreparedInput) (id : JsString) :
    (s.openedFor env prepared).requests.get? id = s.requests.get? id ∨
      id = env.randomUUID 1 ∧ (s.openedFor env prepared).requests.get? id = some (opened env prepared id) := by
  unfold openedFor
  cases prepared.responsePolicy with
  | none => exact .inl rfl
  | required =>
    dsimp only
    rw [InsertionMap.get?_set]
    split
    case isTrue hid => exact .inr ⟨hid, by rw [hid]⟩
    case isFalse => exact .inl rfl

theorem prepare_step {input : PrepareAgentCommunicationInput} {prepared : PreparedInput} (hfresh : Fresh env s)
    (h : Preparable functions env s input prepared) (id : JsString) :
    RequestStep functions env (.prepare input) id (s.requests.get? id)
      (((s.reservedFor env prepared).openedFor env prepared).requests.get? id) := by
  rcases get?_openedFor env (s.reservedFor env prepared) prepared id with hsame | ⟨rfl, hopened⟩
  · rw [hsame]
    rcases get?_reservedFor env h.reply id with hkept | ⟨record, hrecord, hcheck, hreserved⟩
    · rw [hkept]
      exact .kept _
    · rw [hrecord, hreserved]
      exact .reserved h.accepted hcheck
  · rw [hopened, hfresh.request]
    exact .opened rfl h.accepted

/-- A request that is answered is not delivered again. -/
theorem delivered_replied (preparation : AgentCommunicationPreparation) (receipt : CommitReceipt)
    (record : AgentRequestRecord) :
    delivered env receipt (replied env preparation record) = replied env preparation record := rfl

theorem committed_step {preparation : AgentCommunicationPreparation} {receipt : CommitReceipt}
    (h : Committed env preparation receipt s s') (id : JsString) :
    RequestStep functions env call id (s.requests.get? id) (s'.requests.get? id) := by
  cases h with
  | already => exact .kept _
  | now _ hreply =>
    split
    case isFalse => exact .kept _
    case isTrue =>
      show RequestStep functions env call id _ ((s.committed env preparation receipt).requests.get? id)
      unfold AgentRequestState.committed
      rw [get?_assignNamed, get?_assignNamed]
      cases hrecord : s.requests.get? id with
      | none => exact .kept none
      | some record =>
        simp only [Option.map_some]
        by_cases hid : presentText preparation.inReplyToRequestId = some id
        · obtain ⟨current, hcurrent, hpending, _⟩ := hreply id hid
          obtain rfl := Option.some.inj (hrecord.symm.trans hcurrent)
          simp only [hid, if_true, delivered_replied, ite_self]
          exact .replied hpending
        · simp only [hid, if_false]
          split
          · exact .delivered
          · exact .kept _

theorem cancelled_step {reason : Option JsString} {name : JsString} (h : Cancelled env reason name s s')
    (id : JsString) : RequestStep functions env call id (s.requests.get? id) (s'.requests.get? id) := by
  cases h with
  | already => exact .kept _
  | now hrecord hresponded hcancelled => exact .set hrecord (.withdrawn hresponded hcancelled) id

theorem aborted_step {preparation : AgentCommunicationPreparation} (id : JsString) :
    RequestStep functions env (.abort preparation) id (s.requests.get? id)
      ((s.aborted env preparation).requests.get? id) := by
  have h := get?_aborted env s preparation id
  generalize s.requests.get? id = before at h
  generalize (s.aborted env preparation).requests.get? id = after at h
  cases h with
  | kept => exact .kept _
  | released _ hpending => exact .released hpending
  | deleted _ hstatus => exact .deleted rfl hstatus

theorem rebound_step (h : ReboundAll functions env s s') (id : JsString) :
    RequestStep functions env call id (s.requests.get? id) (s'.requests.get? id) := by
  have hid := h.requests id
  generalize s.requests.get? id = before at hid
  generalize s'.requests.get? id = after at hid
  cases hid with
  | none => exact .kept none
  | some hrebound => exact .rebound hrebound

theorem effect_step (hfresh : Fresh env s) (h : Effect functions env s call s') (id : JsString) :
    RequestStep functions env call id (s.requests.get? id) (s'.requests.get? id) := by
  cases h with
  | kept => exact .kept _
  | prepare hprepared => exact prepare_step hfresh hprepared id
  | recordConnectionResponse _ hrecordable =>
    exact .set hrecordable.found (.answered hrecordable.awaiting hrecordable.idle) id
  | bindResponseEvidence _ hrecord => exact .set hrecord .evidenced id
  | bindEndpointDelivery => exact .kept _
  | markEndpointDispatching => exact .kept _
  | noteEndpointDeliveryFailure => exact .kept _
  | markEndpointNotSent => exact .kept _
  | commitEndpointReceipt hreceived =>
    cases hreceived with
    | already => exact .kept _
    | now _ _ _ hcommitted =>
      split <;> exact committed_step hcommitted id
  | commit hcommitted => exact committed_step hcommitted id
  | abort => exact aborted_step id
  | cancel hcancelled => exact cancelled_step hcancelled id
  | cancelEndpointDelivery hcancelled =>
    cases hcancelled with
    | already => exact .kept _
    | linked _ _ _ _ _ _ _ hlinked => exact cancelled_step hlinked id
    | unlinked => exact .kept _
  | reconcileOpenParties hall => exact rebound_step hall id

theorem thrown_step (h : Thrown functions env s s') (id : JsString) :
    RequestStep functions env call id (s.requests.get? id) (s'.requests.get? id) := by
  rcases h with halike | hall
  · rw [halike.requests]
    exact .kept _
  · exact rebound_step hall id

/-! ## Deliveries -/

/-- What a call can make of the delivery that stands under an id. -/
inductive DeliveryStep (functions : Functions) (env : Env) (call : Call) (id : JsString) :
    Option PreparedEndpointDelivery → Option PreparedEndpointDelivery → Prop where
  | kept (delivery : Option PreparedEndpointDelivery) : DeliveryStep functions env call id delivery delivery
  | bound {s : AgentRequestState} {delivery : PreparedEndpointDelivery} : call = .bindEndpointDelivery delivery →
      Bindable functions s delivery → delivery.deliveryId = id →
      DeliveryStep functions env call id none (some (bound env delivery))
  | dispatched {delivery : PreparedEndpointDelivery} : call = .markEndpointDispatching id →
      delivery.state = .prepared → DeliveryStep functions env call id (some delivery) (some (dispatched env delivery))
  | failed {message : JsString} {code : Option JsString} {blocked : Bool} {delivery : PreparedEndpointDelivery} :
      delivery.state ≠ .committed → delivery.state ≠ .cancelled →
      DeliveryStep functions env call id (some delivery) (some (failed env message code blocked delivery))
  | unsent {proof : Option EndpointDeliveryNoFrameProof} {delivery : PreparedEndpointDelivery} :
      call = .markEndpointNotSent id proof → delivery.state = .dispatching → delivery.receipt = none →
      checkNoFrameProof functions delivery proof = .ok () →
      DeliveryStep functions env call id (some delivery) (some (unsent env proof delivery))
  | received {receipt : EndpointDeliveryReceipt} {delivery : PreparedEndpointDelivery} :
      call = .commitEndpointReceipt id receipt → receiptMatches receipt delivery = true →
      delivery.state = .dispatching →
      DeliveryStep functions env call id (some delivery) (some (received env receipt delivery))
  | deleted {delivery : PreparedEndpointDelivery} : delivery.state = .prepared →
      DeliveryStep functions env call id (some delivery) none
  | untracked {message : JsString} {delivery : PreparedEndpointDelivery} : delivery.state ≠ .committed →
      delivery.state ≠ .cancelled → delivery.receipt = none →
      DeliveryStep functions env call id (some delivery) (some (untracked env message delivery))

/-- A delivery that is set in the place of another one. -/
theorem DeliveryStep.set {delivery delivery' : PreparedEndpointDelivery} (hdelivery : s.deliveries.get? id = some delivery)
    (h : DeliveryStep functions env call id (some delivery) (some delivery')) (id' : JsString) :
    DeliveryStep functions env call id' (s.deliveries.get? id') ((s.deliveries.set id delivery').get? id') := by
  rw [InsertionMap.get?_set]
  split
  case isTrue hid =>
    subst hid
    rw [hdelivery]
    exact h
  case isFalse => exact .kept _

theorem deliveries_committed {preparation : AgentCommunicationPreparation} {receipt : CommitReceipt}
    (h : Committed env preparation receipt s s') : s'.deliveries = s.deliveries := by
  cases h with
  | already => rfl
  | now =>
    split
    · show (s.committed env preparation receipt).deliveries = _
      rw [committed_eq]
    · rfl

theorem deliveries_prepared (prepared : PreparedInput) :
    ((s.reservedFor env prepared).openedFor env prepared).deliveries = s.deliveries := by
  have hreserved : (s.reservedFor env prepared).deliveries = s.deliveries := by
    unfold reservedFor assignRequest
    split
    · rfl
    · split <;> rfl
  unfold openedFor
  split <;> exact hreserved

theorem cancelled_deliveryStep {reason : Option JsString} {name : JsString} (h : Cancelled env reason name s s')
    (id : JsString) : DeliveryStep functions env call id (s.deliveries.get? id) (s'.deliveries.get? id) := by
  cases h with
  | already => exact .kept _
  | @now record hrecord =>
    show DeliveryStep functions env call id _ ((s.withdrawing env reason name record).deliveries.get? id)
    rw [get?_deliveries_withdrawing]
    cases s.deliveries.get? id with
    | none => exact .kept none
    | some delivery =>
      rw [Option.map_some]
      unfold untrackAffected
      split
      case isFalse => exact .kept _
      case isTrue haffected =>
        simp only [affected, Bool.and_eq_true, decide_eq_true_eq, Option.isNone_iff_eq_none] at haffected
        exact .untracked haffected.1.1.1 haffected.1.2 haffected.1.1.2

theorem effect_deliveryStep (h : Effect functions env s call s') (id : JsString) :
    DeliveryStep functions env call id (s.deliveries.get? id) (s'.deliveries.get? id) := by
  cases h with
  | kept => exact .kept _
  | prepare =>
    rw [AgentRequestState.written, deliveries_prepared]
    exact .kept _
  | recordConnectionResponse => exact .kept _
  | bindResponseEvidence => exact .kept _
  | @bindEndpointDelivery delivery hbindable =>
    show DeliveryStep functions env _ id _ ((s.deliveries.set delivery.deliveryId _).get? id)
    rw [InsertionMap.get?_set]
    split
    case isTrue hid =>
      subst hid
      rw [hbindable.absent]
      exact .bound rfl hbindable rfl
    case isFalse => exact .kept _
  | markEndpointDispatching hactive hstate => exact .set (activeDelivery_ok hactive).1 (.dispatched rfl hstate) id
  | noteEndpointDeliveryFailure hnotable => exact .set hnotable.1 (.failed hnotable.2.1 hnotable.2.2) id
  | markEndpointNotSent hproven =>
    exact .set hproven.found (.unsent rfl hproven.dispatching hproven.receipt hproven.proof) id
  | commitEndpointReceipt hreceived =>
    cases hreceived with
    | already => exact .kept _
    | now hactive hmatches hstate hcommitted =>
      have hdeliveries := deliveries_committed hcommitted
      split
      · rw [hdeliveries]
        exact .set (activeDelivery_ok hactive).1 (.received rfl hmatches hstate) id
      · rw [AgentRequestState.written, hdeliveries]
        exact .set (activeDelivery_ok hactive).1 (.received rfl hmatches hstate) id
  | commit hcommitted =>
    rw [deliveries_committed hcommitted]
    exact .kept _
  | @abort preparation hprepared =>
    show DeliveryStep functions env _ id _ ((s.aborted env preparation).deliveries.get? id)
    rw [get?_deliveries_aborted]
    split
    case isFalse => exact .kept _
    case isTrue hid =>
      subst hid
      cases hdelivery : s.deliveries.get? preparation.deliveryId with
      | none => exact .kept none
      | some delivery => exact .deleted (hprepared delivery hdelivery)
  | cancel hcancelled => exact cancelled_deliveryStep hcancelled id
  | cancelEndpointDelivery hcancelled =>
    cases hcancelled with
    | already => exact .kept _
    | linked _ _ _ _ _ _ _ hlinked => exact cancelled_deliveryStep hlinked id
    | unlinked hdelivery hcommitted hcancelled hreceipt =>
      exact .set hdelivery (.untracked hcommitted hcancelled hreceipt) id
  | reconcileOpenParties hall =>
    rw [AgentRequestState.written, hall.deliveries]
    exact .kept _

theorem thrown_deliveryStep (h : Thrown functions env s s') (id : JsString) :
    DeliveryStep functions env call id (s.deliveries.get? id) (s'.deliveries.get? id) := by
  rcases h with halike | hall
  · rw [halike.deliveries]
    exact .kept _
  · rw [hall.deliveries]
    exact .kept _

/-! ## Records stay under their ids -/

theorem RequestStep.same_id {record record' : AgentRequestRecord} (hrecord : record.id = id)
    (h : RequestStep functions env call id (some record) (some record')) : record'.id = id := by
  cases h with
  | kept => exact hrecord
  | reserved => exact hrecord
  | answered => exact hrecord
  | evidenced => exact hrecord
  | replied => exact hrecord
  | delivered =>
    unfold AgentRequests.delivered
    split <;> exact hrecord
  | released => exact hrecord
  | withdrawn => exact hrecord
  | rebound h => cases h <;> exact hrecord

theorem DeliveryStep.same_id {delivery delivery' : PreparedEndpointDelivery} (hdelivery : delivery.deliveryId = id)
    (h : DeliveryStep functions env call id (some delivery) (some delivery')) : delivery'.deliveryId = id := by
  cases h with
  | kept => exact hdelivery
  | dispatched => exact hdelivery
  | failed =>
    unfold AgentRequests.failed
    dsimp only
    split <;> exact hdelivery
  | unsent => exact hdelivery
  | received => exact hdelivery
  | untracked => exact hdelivery

theorem Keyed.step (hkeyed : Keyed s) (hrequests : ∀ id, RequestStep functions env call id (s.requests.get? id)
    (s'.requests.get? id)) (hdeliveries : ∀ id, DeliveryStep functions env call id (s.deliveries.get? id)
    (s'.deliveries.get? id)) : Keyed s' := by
  constructor
  · intro id record' hrecord'
    have hstep := hrequests id
    rw [hrecord'] at hstep
    cases hrecord : s.requests.get? id with
    | none =>
      rw [hrecord] at hstep
      cases hstep
      rfl
    | some record => exact RequestStep.same_id (hkeyed.requests id record hrecord) (hrecord ▸ hstep)
  · intro id delivery' hdelivery'
    have hstep := hdeliveries id
    rw [hdelivery'] at hstep
    cases hdelivery : s.deliveries.get? id with
    | none =>
      rw [hdelivery] at hstep
      cases hstep with
      | bound _ _ hid => exact hid
    | some delivery => exact DeliveryStep.same_id (hkeyed.deliveries id delivery hdelivery) (hdelivery ▸ hstep)

/-- Every event takes each record one step. -/
structure EventSteps (functions : Functions) (e : Event) (s s' : AgentRequestState) : Prop where
  requests : ∀ id, RequestStep functions e.env e.call id (s.requests.get? id) (s'.requests.get? id)
  deliveries : ∀ id, DeliveryStep functions e.env e.call id (s.deliveries.get? id) (s'.deliveries.get? id)

theorem event_steps {e : Event} {answer : Except Failure Reply} (hkeyed : Keyed s)
    (h : (ledger functions).step e s = some (answer, s')) : EventSteps functions e s s' := by
  obtain ⟨hfresh, heffect | hthrown⟩ := step_outcome hkeyed h
  · exact ⟨effect_step hfresh heffect, effect_deliveryStep heffect⟩
  · exact ⟨thrown_step hthrown, thrown_deliveryStep hthrown⟩

end RabiRoute.AgentRequests
