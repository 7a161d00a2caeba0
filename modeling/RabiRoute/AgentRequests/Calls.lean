import RabiRoute.AgentRequests.PartyEffects
import RabiRoute.Transitions.System

/-!
# Runs of the ledger

A run is a sequence of calls of the operations of `AgentRequestState`, each of them on its own or inside
`transaction`.
-/

open Collections Interleave Transitions

namespace RabiRoute.AgentRequests

open AgentRequestState

inductive Call where
  | prepare (input : PrepareAgentCommunicationInput)
  | recordConnectionResponse (requestId : JsString) (actualSource : AgentRequestParty)
      (responseDeliveryId : Option JsString) (result nextAction : JsString)
  | bindResponseEvidence (preparation : AgentCommunicationPreparation) (prompt : JsString)
  | bindEndpointDelivery (delivery : PreparedEndpointDelivery)
  | markEndpointDispatching (deliveryId : JsString)
  | noteEndpointDeliveryFailure (deliveryId message : JsString) (code : Option JsString) (blocked : Bool)
  | markEndpointNotSent (deliveryId : JsString) (proof : Option EndpointDeliveryNoFrameProof)
  | commitEndpointReceipt (deliveryId : JsString) (receipt : EndpointDeliveryReceipt)
  | commit (preparation : AgentCommunicationPreparation) (receipt : CommitReceipt)
  | abort (preparation : AgentCommunicationPreparation)
  | cancel (requestId : JsString) (reason : Option JsString)
  | cancelEndpointDelivery (deliveryId : JsString)
  | reconcileOpenParties (resolve : AgentRequestParty → AgentRequestRecord → PartyRole → Resolution)

inductive Reply where
  | nothing
  | preparation (preparation : AgentCommunicationPreparation)
  | attempt (dispatchAttemptId : JsString)
  | record (record : AgentRequestRecord)
  | commit (result : CommitResult)
  | delivery (delivery : Option PreparedEndpointDelivery)
  | reconciled (reconciled : Reconciled)

def Call.operation (functions : Functions) (env : Env) : Call → Operation Reply
  | .prepare input => .preparation <$> AgentRequests.prepare functions env input
  | .recordConnectionResponse requestId actualSource responseDeliveryId result nextAction =>
    .record <$> AgentRequests.recordConnectionResponse functions env requestId actualSource responseDeliveryId result
      nextAction
  | .bindResponseEvidence preparation prompt =>
    (fun _ ↦ .nothing) <$> AgentRequests.bindResponseEvidence functions env preparation prompt
  | .bindEndpointDelivery delivery => (fun _ ↦ .nothing) <$> AgentRequests.bindEndpointDelivery functions env delivery
  | .markEndpointDispatching deliveryId => .attempt <$> AgentRequests.markEndpointDispatching functions env deliveryId
  | .noteEndpointDeliveryFailure deliveryId message code blocked =>
    (fun _ ↦ .nothing) <$> AgentRequests.noteEndpointDeliveryFailure env deliveryId message code blocked
  | .markEndpointNotSent deliveryId proof =>
    (fun _ ↦ .nothing) <$> AgentRequests.markEndpointNotSent functions env deliveryId proof
  | .commitEndpointReceipt deliveryId receipt =>
    (fun _ ↦ .nothing) <$> AgentRequests.commitEndpointReceipt functions env deliveryId receipt
  | .commit preparation receipt => .commit <$> AgentRequests.commit env preparation receipt
  | .abort preparation => (fun _ ↦ .nothing) <$> AgentRequests.abort env preparation
  | .cancel requestId reason => .record <$> AgentRequests.cancel env requestId reason
  | .cancelEndpointDelivery deliveryId =>
    .delivery <$> AgentRequests.cancelEndpointDelivery functions env deliveryId
  | .reconcileOpenParties resolve => .reconciled <$> AgentRequests.reconcileOpenParties functions env resolve

variable {functions : Functions} {env : Env} {s s' : AgentRequestState} {id : JsString} {α β : Type}

theorem after_map {operation : Operation α} {f : α → β} {post : Except Failure β → AgentRequestState → Prop} :
    After (f <$> operation) s post ↔ After operation s fun outcome s' => post (outcome.map f) s' := by
  rw [← bind_pure_comp]
  refine after_bind.trans (iff_of_eq (congrArg _ (funext fun outcome => funext fun s' => ?_)))
  cases outcome <;> rfl

/-! ## What a call does -/

/-- The ids that `randomUUID` gives for a delivery and for a request are UUIDs, and they are new. -/
def Fresh (env : Env) (s : AgentRequestState) : Prop :=
  (isUuid (env.randomUUID 0) = true ∧ s.holdsDeliveryId (env.randomUUID 0) = false) ∧
    isUuid (env.randomUUID 1) = true ∧ s.requests.get? (env.randomUUID 1) = none

instance : Decidable (Fresh env s) := inferInstanceAs (Decidable ((_ ∧ _) ∧ _ ∧ _))

theorem Fresh.request (h : Fresh env s) : s.requests.get? (env.randomUUID 1) = none := h.2.2

/-- The ledger that a call leaves when it returns. -/
inductive Effect (functions : Functions) (env : Env) (s : AgentRequestState) : Call → AgentRequestState → Prop where
  | kept (call : Call) : Effect functions env s call s
  | prepare {input : PrepareAgentCommunicationInput} {prepared : PreparedInput} :
      Preparable functions env s input prepared → tracks prepared = true →
      Effect functions env s (.prepare input) ((s.reservedFor env prepared).openedFor env prepared).written
  | recordConnectionResponse {requestId : JsString} {actualSource : AgentRequestParty}
      {responseDeliveryId : Option JsString} {result nextAction : JsString} {response : AgentRequestResponse}
      {record : AgentRequestRecord} :
      connectionResponse functions env actualSource responseDeliveryId result nextAction = .ok response →
      Recordable s (cleanTextOr 100 (some requestId)) response record →
      Effect functions env s (.recordConnectionResponse requestId actualSource responseDeliveryId result nextAction)
        { s with requests := s.requests.set (cleanTextOr 100 (some requestId)) (answered response record) }.written
  | bindResponseEvidence {preparation : AgentCommunicationPreparation} {prompt : JsString} {id : JsString}
      {record : AgentRequestRecord} :
      presentText preparation.inReplyToRequestId = some id → s.requests.get? id = some record →
      record.pendingResponseDeliveryId = some preparation.deliveryId →
      Effect functions env s (.bindResponseEvidence preparation prompt)
        { s with requests := s.requests.set id (evidenced functions preparation prompt record) }.written
  | bindEndpointDelivery {delivery : PreparedEndpointDelivery} : Bindable functions s delivery →
      Effect functions env s (.bindEndpointDelivery delivery)
        { s with deliveries := s.deliveries.set delivery.deliveryId (bound env delivery) }.written
  | markEndpointDispatching {id : JsString} {delivery : PreparedEndpointDelivery} :
      s.activeDelivery functions id = .ok delivery → delivery.state = .prepared →
      Effect functions env s (.markEndpointDispatching id)
        { s with deliveries := s.deliveries.set id (dispatched env delivery) }.written
  | noteEndpointDeliveryFailure {id message : JsString} {code : Option JsString} {blocked : Bool}
      {delivery : PreparedEndpointDelivery} : Notable s id delivery →
      Effect functions env s (.noteEndpointDeliveryFailure id message code blocked)
        { s with deliveries := s.deliveries.set id (failed env message code blocked delivery) }.written
  | markEndpointNotSent {id : JsString} {proof : Option EndpointDeliveryNoFrameProof}
      {delivery : PreparedEndpointDelivery} : ProvenUnsent functions s id proof delivery →
      Effect functions env s (.markEndpointNotSent id proof)
        { s with deliveries := s.deliveries.set id (unsent env proof delivery) }.written
  | commitEndpointReceipt {id : JsString} {receipt : EndpointDeliveryReceipt} {s' : AgentRequestState} :
      ReceiptCommitted functions env receipt id s s' →
      Effect functions env s (.commitEndpointReceipt id receipt) s'
  | commit {preparation : AgentCommunicationPreparation} {receipt : CommitReceipt} {s' : AgentRequestState} :
      Committed env preparation receipt s s' → Effect functions env s (.commit preparation receipt) s'
  | abort {preparation : AgentCommunicationPreparation} :
      (∀ delivery, s.deliveries.get? preparation.deliveryId = some delivery → delivery.state = .prepared) →
      s.abortable env preparation = true →
      Effect functions env s (.abort preparation) (s.aborted env preparation).written
  | cancel {requestId : JsString} {reason : Option JsString} {s' : AgentRequestState} :
      Cancelled env reason (cleanTextOr 100 (some requestId)) s s' →
      Effect functions env s (.cancel requestId reason) s'
  | cancelEndpointDelivery {id : JsString} {s' : AgentRequestState} : DeliveryCancelled functions env id s s' →
      Effect functions env s (.cancelEndpointDelivery id) s'
  | reconcileOpenParties {resolve : AgentRequestParty → AgentRequestRecord → PartyRole → Resolution}
      {s₁ : AgentRequestState} : ReboundAll functions env s s₁ →
      Effect functions env s (.reconcileOpenParties resolve) s₁.written

/-- The ledger that a call leaves when it throws: only `reconcileOpenParties` puts nothing back. -/
def Thrown (functions : Functions) (env : Env) (s s' : AgentRequestState) : Prop :=
  Alike s s' ∨ ReboundAll functions env s s'

/-- What every call does. -/
def CallOutcome (functions : Functions) (env : Env) (call : Call) (s : AgentRequestState) :
    Except Failure Reply → AgentRequestState → Prop
  | .ok _, s' => Effect functions env s call s'
  | .error _, s' => Thrown functions env s s'

theorem CallOutcome.of_outcome {call : Call} {operation : Operation α} {reply : α → Reply} {effect : α →
    AgentRequestState → Prop} (h : After operation s (Outcome s effect)) (heffect : ∀ a s', effect a s' → Effect
    functions env s call s') : After (reply <$> operation) s (CallOutcome functions env call s) := by
  refine after_map.mpr (h.mono fun outcome s' hs' => ?_)
  cases outcome with
  | ok a => exact heffect a s' hs'
  | error failure => exact .inl hs'

theorem after_call {call : Call} (hkeyed : Keyed s) (hfresh : Fresh env s) :
    After (call.operation functions env) s (CallOutcome functions env call s) := by
  cases call with
  | prepare input =>
    refine .of_outcome (after_prepare hkeyed hfresh.request) fun _ s' ⟨prepared, hprepared, _, hs'⟩ => ?_
    subst hs'
    split
    case isTrue htracks => exact .prepare hprepared htracks
    case isFalse => exact .kept _
  | recordConnectionResponse requestId actualSource responseDeliveryId result nextAction =>
    refine .of_outcome (after_recordConnectionResponse hkeyed) fun _ s' hs' => ?_
    obtain rfl | ⟨response, record, hresponse, hrecordable, rfl⟩ := hs'
    · exact .kept _
    · exact .recordConnectionResponse hresponse hrecordable
  | bindResponseEvidence preparation prompt =>
    refine .of_outcome after_bindResponseEvidence fun _ s' hs' => ?_
    obtain rfl | ⟨id, record, hid, hrecord, hpending, rfl⟩ := hs'
    · exact .kept _
    · exact .bindResponseEvidence hid hrecord hpending
  | bindEndpointDelivery delivery =>
    refine .of_outcome after_bindEndpointDelivery fun _ s' ⟨hbindable, hs'⟩ => ?_
    exact hs' ▸ .bindEndpointDelivery hbindable
  | markEndpointDispatching id =>
    refine .of_outcome after_markEndpointDispatching fun _ s' ⟨_, delivery, hactive, hstate, hs'⟩ => ?_
    exact hs' ▸ .markEndpointDispatching hactive hstate
  | noteEndpointDeliveryFailure id message code blocked =>
    refine .of_outcome after_noteEndpointDeliveryFailure fun _ s' hs' => ?_
    obtain rfl | ⟨delivery, hnotable, rfl⟩ := hs'
    · exact .kept _
    · exact .noteEndpointDeliveryFailure hnotable
  | markEndpointNotSent id proof =>
    refine .of_outcome after_markEndpointNotSent fun _ s' hs' => ?_
    obtain rfl | ⟨delivery, hproven, rfl⟩ := hs'
    · exact .kept _
    · exact .markEndpointNotSent hproven
  | commitEndpointReceipt id receipt =>
    exact .of_outcome after_commitEndpointReceipt fun _ s' hs' => .commitEndpointReceipt hs'
  | commit preparation receipt => exact .of_outcome after_commit fun _ s' hs' => .commit hs'
  | abort preparation =>
    refine .of_outcome (after_abort hkeyed) fun _ s' ⟨hprepared, hs'⟩ => ?_
    subst hs'
    split
    case isTrue hchanged => exact .abort hprepared hchanged
    case isFalse => exact .kept _
  | cancel requestId reason =>
    have hcancel : After (AgentRequests.cancel env requestId reason) s
        (Outcome s fun _ s' => Cancelled env reason (cleanTextOr 100 (some requestId)) s s') := by
      rw [← bind_pure (AgentRequests.cancel env requestId reason)]
      exact after_cancel hkeyed fun record s' hs' => hs'
    exact .of_outcome hcancel fun _ s' hs' => .cancel hs'
  | cancelEndpointDelivery id =>
    exact .of_outcome (after_cancelEndpointDelivery hkeyed) fun _ s' hs' => .cancelEndpointDelivery hs'
  | reconcileOpenParties resolve =>
    refine after_map.mpr (after_reconcileOpenParties.mono fun outcome s' hs' => ?_)
    cases outcome with
    | error failure => exact .inr hs'
    | ok reconciled =>
      obtain rfl | ⟨s₁, hs₁, rfl⟩ := hs'
      · exact .kept _
      · exact .reconcileOpenParties hs₁

/-! ## Runs -/

namespace AgentRequestState

/-- `transaction`: an error leaves the maps as they were. -/
def transaction (s : AgentRequestState) (operation : Operation α) : Except Failure α × AgentRequestState :=
  match s.run operation with
  | (.ok a, s') => (.ok a, s')
  | (.error failure, s') => (.error failure, { s' with requests := s.requests, deliveries := s.deliveries })

end AgentRequestState

structure Event where
  call : Call
  env : Env
  transacted : Bool

def Event.run (functions : Functions) (e : Event) (s : AgentRequestState) : Except Failure Reply × AgentRequestState :=
  if e.transacted then s.transaction (e.call.operation functions e.env) else s.run (e.call.operation functions e.env)

/-- The ledger, one call after another. -/
def ledger (functions : Functions) : System AgentRequestState Event (Except Failure Reply) where
  step e s := if Fresh e.env s then some (e.run functions s) else none

/-- What an event leaves. -/
theorem step_outcome {e : Event} {answer : Except Failure Reply} (hkeyed : Keyed s) (h : (ledger functions).step e s =
    some (answer, s')) : Fresh e.env s ∧ (Effect functions e.env s e.call s' ∨ Thrown functions e.env s s') := by
  simp only [ledger] at h
  split at h
  case isFalse => cases h
  case isTrue hfresh =>
    refine ⟨hfresh, ?_⟩
    have hcall : After (e.call.operation functions e.env) s (CallOutcome functions e.env e.call s) :=
      after_call hkeyed hfresh
    cases hrun : s.run (e.call.operation functions e.env) with
    | mk outcome s'' =>
    have houtcome := after_run hcall hrun
    have hanswer := Option.some.inj h
    unfold Event.run AgentRequestState.transaction at hanswer
    rw [hrun] at hanswer
    cases outcome with
    | ok reply =>
      have hs' : s'' = s' := by
        split at hanswer <;> exact congrArg Prod.snd hanswer
      exact .inl (hs' ▸ houtcome)
    | error failure =>
      refine .inr ?_
      split at hanswer
      · have hs' := congrArg Prod.snd hanswer
        have hframe : OnlyRecords s s'' := by
          rcases houtcome with halike | hall
          · exact ⟨halike.unavailable, halike.quarantinedDeliveries, halike.quarantinedRequests, halike.reason,
              halike.file⟩
          · exact hall.frame
        subst hs'
        exact .inl ⟨fun _ => rfl, fun _ => rfl, hframe.unavailable, hframe.quarantinedDeliveries,
          hframe.quarantinedRequests, hframe.reason, hframe.file⟩
      · have hs' : s'' = s' := congrArg Prod.snd hanswer
        exact hs' ▸ houtcome

end RabiRoute.AgentRequests
