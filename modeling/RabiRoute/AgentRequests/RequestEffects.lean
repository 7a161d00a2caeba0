import RabiRoute.AgentRequests.DeliveryEffects

/-!
# What the operations on requests do

The rollbacks of these operations put a record back under its own id, so they need a ledger in which each
record stands under its id.
-/

open Collections Interleave

namespace RabiRoute.AgentRequests

open AgentRequestState

variable {functions : Functions} {env : Env} {s s' : AgentRequestState} {id : JsString} {α : Type}

/-- Each record stands under its id. -/
structure Keyed (s : AgentRequestState) : Prop where
  requests : ∀ id record, s.requests.get? id = some record → record.id = id
  deliveries : ∀ id delivery, s.deliveries.get? id = some delivery → delivery.deliveryId = id

/-- A request that was assigned is put back. -/
theorem Alike.restoreRequest {record record' : AgentRequestRecord} (h : s.requests.get? id = some record) :
    Alike s { s with requests := (s.requests.set id record').set id record } := by
  refine ⟨fun id' => ?_, fun _ => rfl, rfl, rfl, rfl, rfl, rfl⟩
  show ((s.requests.set id record').set id record).get? id' = _
  rw [InsertionMap.get?_set, InsertionMap.get?_set]
  split
  case isTrue hid => rw [hid, h]
  case isFalse => rfl

/-! ## Preparing -/

/-- The request that is answered is reserved for the delivery. -/
def AgentRequestState.reservedFor (s : AgentRequestState) (env : Env) (prepared : PreparedInput) : AgentRequestState :=
  match prepared.inReplyToRequestId with
  | none => s
  | some id => s.assignRequest id (reserved env prepared.deliveryId)

/-- The request that waits for a response is opened. -/
def AgentRequestState.openedFor (s : AgentRequestState) (env : Env) (prepared : PreparedInput) : AgentRequestState :=
  match prepared.responsePolicy with
  | .none => s
  | .required =>
    { s with requests := s.requests.set (env.randomUUID 1) (opened env prepared (env.randomUUID 1)) }

/-- The preparation reserves or opens a request. -/
def tracks (prepared : PreparedInput) : Bool :=
  prepared.inReplyToRequestId.isSome || prepared.responsePolicy = .required

/-- The request that is answered accepts the reply. -/
def AcceptsReply (s : AgentRequestState) (prepared : PreparedInput) : Prop :=
  match prepared.inReplyToRequestId with
  | none => prepared.result = none ∧ prepared.nextAction = none
  | some id => ∃ record, s.requests.get? id = some record ∧ checkReply record prepared = .ok ()

/-- The checks of `prepare`. -/
structure Preparable (functions : Functions) (env : Env) (s : AgentRequestState)
    (input : PrepareAgentCommunicationInput) (prepared : PreparedInput) : Prop where
  accepted : prepareInput functions env input = .ok prepared
  unreserved : input.deliveryId.isSome = true → s.holdsDeliveryId prepared.deliveryId = false
  reply : AcceptsReply s prepared

/-- What `prepare` answers. -/
def preparation (env : Env) (prepared : PreparedInput) : AgentCommunicationPreparation where
  deliveryId := prepared.deliveryId
  requestId := if prepared.responsePolicy = .required then some (env.randomUUID 1) else none
  inReplyToRequestId := prepared.inReplyToRequestId
  responsePolicy := prepared.responsePolicy
  responseInstruction := prepared.responseInstruction
  result := prepared.result
  nextAction := prepared.nextAction
  source := prepared.source
  target := prepared.target
  messageProcessingRequirementId := prepared.messageProcessingRequirementId
  planId := prepared.planId

/-- The reservation of `prepare`, and what its rollback is told. -/
theorem after_reserveReply {prepared : PreparedInput} {f : Option (JsString × AgentRequestRecord) → Operation α}
    {effect : α → AgentRequestState → Prop}
    (hnone : prepared.inReplyToRequestId = none → AcceptsReply s prepared → After (f none) s (Outcome s effect))
    (hsome : ∀ id record, prepared.inReplyToRequestId = some id → s.requests.get? id = some record →
      AcceptsReply s prepared →
      After (f (some (id, record))) { s with
        requests := s.requests.set id (reserved env prepared.deliveryId record) } (Outcome s effect)) :
    After (reserveReply env prepared >>= f) s (Outcome s effect) := by
  unfold reserveReply
  unfold AcceptsReply at hnone hsome
  split
  case h_1 hid =>
    rw [bind_assoc, after_raiseIf]
    split
    · exact .refl s
    case isFalse hfields =>
      simp only [Bool.or_eq_true, not_or, Bool.not_eq_true, Option.isSome_eq_false_iff,
        Option.isNone_iff_eq_none] at hfields
      simp only [hid] at hnone
      exact hnone trivial hfields
  case h_2 id hid =>
    rw [bind_assoc, after_getRequest]
    split
    · exact .refl s
    case h_2 record hrecord =>
      rw [bind_assoc, after_ofExcept]
      split
      case h_2 => exact .refl s
      case h_1 hcheck =>
        simp only [hid] at hsome
        rw [bind_assoc, after_assignRequest, assignRequest_eq hrecord]
        exact hsome id record rfl hrecord ⟨record, hrecord, hcheck⟩

theorem after_openRequest {prepared : PreparedInput} {f : Option JsString → Operation α}
    {post : Except Failure α → AgentRequestState → Prop} :
    After (openRequest env prepared >>= f) s post ↔
      After (f (if prepared.responsePolicy = .required then some (env.randomUUID 1) else none))
        (s.openedFor env prepared) post := by
  unfold openRequest AgentRequestState.openedFor
  cases prepared.responsePolicy <;> exact Iff.rfl

/-- Deleting the request that was opened undoes `openRequest`. -/
theorem after_undoPrepare {prepared : PreparedInput} {replied : Option (JsString × AgentRequestRecord)}
    {post : Except Failure Unit → AgentRequestState → Prop} (hfresh : s.requests.get? (env.randomUUID 1) = none)
    (h : ∀ s', Alike s s' → After (Operation.restoreRequests (replied.map fun entry => (entry.2.id, entry.2)).toList) s'
      post) :
    After (undoPrepare (if prepared.responsePolicy = .required then some (env.randomUUID 1) else none) replied)
      (s.openedFor env prepared) post := by
  unfold undoPrepare AgentRequestState.openedFor
  cases prepared.responsePolicy with
  | none => exact h s (.refl s)
  | required =>
    refine h { s with requests := (s.requests.set _ _).erase _ } ⟨fun id' => ?_, fun _ => rfl, rfl, rfl, rfl, rfl, rfl⟩
    show ((s.requests.set _ _).erase _).get? id' = _
    rw [InsertionMap.get?_erase, InsertionMap.get?_set]
    split
    case isTrue hid => rw [hid, hfresh]
    case isFalse => rfl

theorem after_reservePrepared {prepared : PreparedInput} (hkeyed : Keyed s)
    (hfresh : s.requests.get? (env.randomUUID 1) = none) :
    After (reservePrepared env prepared) s (Outcome s fun answer s' =>
      AcceptsReply s prepared ∧ answer = preparation env prepared ∧
        s' = if tracks prepared then ((s.reservedFor env prepared).openedFor env prepared).written else s) := by
  unfold reservePrepared
  refine after_reserveReply (fun hid hreply => ?_) fun id record hid hrecord hreply => ?_
  · rw [after_openRequest]
    cases hpolicy : prepared.responsePolicy with
    | none =>
      refine ⟨hreply, by simp [preparation, hpolicy], ?_⟩
      simp [tracks, hid, hpolicy, AgentRequestState.openedFor]
    | required =>
      refine after_persistOr (fun _ => ⟨hreply, by simp [preparation, hpolicy], ?_⟩) ?_
      · simp [tracks, hpolicy, AgentRequestState.reservedFor, hid]
      · have hundo : After (undoPrepare (if prepared.responsePolicy = .required then some (env.randomUUID 1) else none)
            none) (s.openedFor env prepared) fun _ s' => Alike s s' := after_undoPrepare hfresh fun s' hs' => hs'
        rw [hpolicy] at hundo
        exact hundo.mono fun _ _ hs' _ => hs'
  · have hne : env.randomUUID 1 ≠ id := by
      rintro rfl
      rw [hfresh] at hrecord
      cases hrecord
    rw [after_openRequest]
    refine after_persistOr (fun _ => ⟨hreply, by simp [preparation], ?_⟩) ?_
    · simp [tracks, hid, AgentRequestState.reservedFor, assignRequest_eq hrecord]
    · refine after_undoPrepare (by rw [InsertionMap.get?_set_of_ne hne]; exact hfresh) fun s' hs' => ?_
      -- the record that was reserved is put back
      intro failure
      refine ⟨fun id' => ?_, hs'.deliveries, hs'.unavailable, hs'.quarantinedDeliveries, hs'.quarantinedRequests,
        hs'.reason, hs'.file⟩
      show (s'.requests.set record.id record).get? id' = _
      rw [InsertionMap.get?_set, hs'.requests, InsertionMap.get?_set, hkeyed.requests id record hrecord]
      split
      case isTrue hid' => rw [hid', hrecord]
      case isFalse => rfl

theorem after_prepare {input : PrepareAgentCommunicationInput} (hkeyed : Keyed s)
    (hfresh : s.requests.get? (env.randomUUID 1) = none) :
    After (prepare functions env input) s (Outcome s fun answer s' =>
      ∃ prepared, Preparable functions env s input prepared ∧ answer = preparation env prepared ∧
        s' = if tracks prepared then ((s.reservedFor env prepared).openedFor env prepared).written else s) := by
  unfold prepare
  rw [after_ofExcept]
  split
  case h_2 => exact .refl s
  case h_1 prepared hprepared =>
    have hrest : (input.deliveryId.isSome = true → s.holdsDeliveryId prepared.deliveryId = false) →
        After (reservePrepared env prepared) s (Outcome s fun answer s' =>
          ∃ prepared, Preparable functions env s input prepared ∧ answer = preparation env prepared ∧
            s' = if tracks prepared then ((s.reservedFor env prepared).openedFor env prepared).written else s) := by
      intro hfree
      refine (after_reservePrepared hkeyed hfresh).mono fun outcome s' h => ?_
      cases outcome with
      | ok answer => exact ⟨prepared, ⟨hprepared, hfree, h.1⟩, h.2⟩
      | error failure => exact h
    unfold checkUnreserved
    split
    case h_1 hnone => exact hrest fun h => (by rw [hnone] at h; cases h)
    case h_2 hsome =>
      rw [bind_assoc, after_hasEndpointDeliveryReservation, after_raiseIf]
      split
      · exact .refl s
      case isFalse hfree => exact hrest fun _ => by simpa using hfree

/-! ## Responses -/

/-- An operation on one request assigns it, and puts it back when the write fails. -/
theorem after_changeRequest {record : AgentRequestRecord} {change : AgentRequestRecord → AgentRequestRecord}
    {f : Unit → Operation α} {effect : α → AgentRequestState → Prop} (hkeyed : Keyed s)
    (h : s.requests.get? id = some record)
    (hok : s.writeFailure env.write = none →
      After (f ()) { s with requests := s.requests.set id (change record) }.written (Outcome s effect)) :
    After (do
      Operation.assignRequest id change
      Operation.persistOr env (Operation.setRequest record.id record) >>= f) s (Outcome s effect) := by
  rw [after_assignRequest, assignRequest_eq h]
  refine after_persistOr hok ?_
  intro failure
  show Alike s { s with requests := (s.requests.set id (change record)).set record.id record }
  rw [hkeyed.requests id record h]
  exact .restoreRequest h

/-- The request takes the response that is to be recorded. -/
structure Recordable (s : AgentRequestState) (id : JsString) (response : AgentRequestResponse)
    (record : AgentRequestRecord) : Prop where
  found : s.requests.get? id = some record
  connection : record.source.connection.isSome = true
  awaiting : record.status = .awaiting_response
  idle : presentText record.pendingResponseDeliveryId = none
  unreserved : s.holdsDeliveryId response.deliveryId = false

theorem after_recordConnectionResponse {requestId : JsString} {actualSource : AgentRequestParty}
    {responseDeliveryId : Option JsString} {result nextAction : JsString} (hkeyed : Keyed s) :
    After (recordConnectionResponse functions env requestId actualSource responseDeliveryId result nextAction) s
      (Outcome s fun _ s' => s' = s ∨ ∃ response record,
        connectionResponse functions env actualSource responseDeliveryId result nextAction = .ok response ∧
          Recordable s (cleanTextOr 100 (some requestId)) response record ∧
          s' = { s with requests :=
            s.requests.set (cleanTextOr 100 (some requestId)) (answered response record) }.written) := by
  unfold recordConnectionResponse
  rw [after_getRequest]
  split
  · exact .refl s
  case h_2 record hrecord =>
    rw [after_raiseIf]
    split
    · exact .refl s
    case isFalse hconnection =>
      rw [after_ofExcept]
      split
      case h_2 => exact .refl s
      case h_1 response hresponse =>
        split
        · rw [after_raiseIf]
          split
          · exact .refl s
          · exact .inl rfl
        · rw [after_raiseIf]
          split
          · exact .refl s
          case isFalse hawaiting =>
            rw [after_hasEndpointDeliveryReservation, after_raiseIf]
            split
            · exact .refl s
            case isFalse hfree =>
              refine after_changeRequest hkeyed hrecord fun _ => ?_
              simp only [Bool.or_eq_true, decide_eq_true_eq, not_or, ne_eq, not_not, Bool.not_eq_true,
                Option.isSome_eq_false_iff, Option.isNone_iff_eq_none] at hawaiting hconnection
              refine .inr ⟨response, record, hresponse, ⟨hrecord, ?_, hawaiting.1, hawaiting.2, by simpa using hfree⟩,
                rfl⟩
              simpa [Option.ne_none_iff_isSome] using hconnection.1

/-- The request with the evidence of the reply that it waits for. -/
def evidenced (functions : Functions) (preparation : AgentCommunicationPreparation) (prompt : JsString)
    (record : AgentRequestRecord) : AgentRequestRecord :=
  { record with
    pendingResponseEvidence := some { promptHash := agentDeliveryPromptHash functions prompt, preparation } }

theorem after_bindResponseEvidence {preparation : AgentCommunicationPreparation} {prompt : JsString} :
    After (bindResponseEvidence functions env preparation prompt) s (Outcome s fun _ s' =>
      s' = s ∨ ∃ id record, presentText preparation.inReplyToRequestId = some id ∧
        s.requests.get? id = some record ∧ record.pendingResponseDeliveryId = some preparation.deliveryId ∧
        s' = { s with requests := s.requests.set id (evidenced functions preparation prompt record) }.written) := by
  unfold bindResponseEvidence
  split
  · exact .inl rfl
  case h_2 id hid =>
    rw [after_getRequest]
    split
    · exact .refl s
    case h_2 record hrecord =>
      rw [after_raiseIf]
      split
      · exact .refl s
      case isFalse hpending =>
        rw [after_assignRequest, assignRequest_eq hrecord]
        refine after_persistOr_tail (fun _ => .inr ⟨id, record, hid, hrecord, by simpa using hpending, rfl⟩) ?_
        -- the evidence that the record had before is put back
        intro failure
        show Alike s (assignRequest _ id _)
        rw [assignRequest_eq InsertionMap.get?_set_self]
        exact .restoreRequest hrecord

/-! ## Commits -/

theorem get?_assignNamed {name : Option JsString} {change : AgentRequestRecord → AgentRequestRecord} (id : JsString) :
    (s.assignNamed name change).requests.get? id =
      (s.requests.get? id).map fun record => if presentText name = some id then change record else record := by
  unfold assignNamed
  split
  case h_1 hnone => simp only [hnone, reduceCtorEq, if_false, Option.map_id']
  case h_2 id' hid =>
    rw [get?_assignRequest, hid]
    simp only [Option.some.injEq, eq_comm]

/-- An assignment leaves all but the requests. -/
theorem assignNamed_eq (name : Option JsString) (change : AgentRequestRecord → AgentRequestRecord) :
    s.assignNamed name change = { s with requests := (s.assignNamed name change).requests } := by
  unfold assignNamed assignRequest
  split
  · rfl
  · split <;> rfl

/-- The request that the preparation opened is still reserved for it. -/
def RequestReserved (s : AgentRequestState) (preparation : AgentCommunicationPreparation) : Prop :=
  ∀ id, presentText preparation.requestId = some id → ∃ record, s.requests.get? id = some record ∧
    record.deliveryId = preparation.deliveryId ∧ record.status ≠ .cancelled

/-- The request that the preparation answers waits for it. -/
def ReplyReserved (s : AgentRequestState) (preparation : AgentCommunicationPreparation) : Prop :=
  ∀ id, presentText preparation.inReplyToRequestId = some id → ∃ record, s.requests.get? id = some record ∧
    record.pendingResponseDeliveryId = some preparation.deliveryId ∧ alreadyReplied preparation record = false

/-- The requests of the preparation after its commit. -/
def AgentRequestState.committed (s : AgentRequestState) (env : Env) (preparation : AgentCommunicationPreparation)
    (receipt : CommitReceipt) : AgentRequestState :=
  (s.assignNamed preparation.inReplyToRequestId (replied env preparation)).assignNamed preparation.requestId
    (delivered env receipt)

/-- The preparation opened or answers a request. -/
def isTracked (preparation : AgentCommunicationPreparation) : Bool :=
  (presentText preparation.requestId).isSome || (presentText preparation.inReplyToRequestId).isSome

/-- What a commit does when it returns. -/
inductive Committed (env : Env) (preparation : AgentCommunicationPreparation) (receipt : CommitReceipt)
    (s : AgentRequestState) : AgentRequestState → Prop where
  | already {id : JsString} {record : AgentRequestRecord} :
      presentText preparation.inReplyToRequestId = some id → s.requests.get? id = some record →
      alreadyReplied preparation record = true → Committed env preparation receipt s s
  | now : RequestReserved s preparation → ReplyReserved s preparation →
      Committed env preparation receipt s
        (if isTracked preparation then (s.committed env preparation receipt).written else s)

theorem before_agree {names : List (Option JsString)} :
    ∀ entry ∈ s.before names, s.requests.get? entry.1 = some entry.2 := by
  intro entry hentry
  obtain ⟨name, -, hname⟩ := List.mem_filterMap.mp hentry
  obtain ⟨id, -, hid⟩ := Option.bind_eq_some_iff.mp hname
  obtain ⟨record, hrecord, rfl⟩ := Option.map_eq_some_iff.mp hid
  exact hrecord

theorem mem_before {names : List (Option JsString)} {name : Option JsString} {record : AgentRequestRecord}
    (hname : name ∈ names) (hid : presentText name = some id) (hrecord : s.requests.get? id = some record) :
    id ∈ (s.before names).map Prod.fst := by
  refine List.mem_map.mpr ⟨(id, record), List.mem_filterMap.mpr ⟨name, hname, ?_⟩, rfl⟩
  rw [hid, Option.bind_some, hrecord, Option.map_some]

/-- Putting back the records of the named requests undoes assignments to them. -/
theorem Alike.restoreBefore {names : List (Option JsString)} {requests : InsertionMap JsString AgentRequestRecord}
    (h : ∀ id, requests.get? id = s.requests.get? id ∨ id ∈ (s.before names).map Prod.fst) :
    Alike s { s with requests := requests.setAll (s.before names) } := by
  refine ⟨fun id => ?_, fun _ => rfl, rfl, rfl, rfl, rfl, rfl⟩
  show (requests.setAll (s.before names)).get? id = _
  rw [InsertionMap.get?_setAll_of_agree before_agree]
  split
  · rfl
  case isFalse hnot => exact (h id).resolve_right hnot

theorem get?_committed {preparation : AgentCommunicationPreparation} {receipt : CommitReceipt} (id : JsString) :
    (s.committed env preparation receipt).requests.get? id = s.requests.get? id ∨
      id ∈ (s.before [preparation.requestId, preparation.inReplyToRequestId]).map Prod.fst := by
  unfold AgentRequestState.committed
  rw [get?_assignNamed, get?_assignNamed]
  cases hrecord : s.requests.get? id with
  | none => exact .inl rfl
  | some record =>
    by_cases hrequest : presentText preparation.requestId = some id
    · exact .inr (mem_before (by simp) hrequest hrecord)
    · by_cases hreply : presentText preparation.inReplyToRequestId = some id
      · exact .inr (mem_before (by simp) hreply hrecord)
      · simp only [hrequest, hreply, if_false, Option.map_some, true_or]

theorem after_checkRequestReservation {preparation : AgentCommunicationPreparation} {f : Unit → Operation α} {effect : α
    → AgentRequestState → Prop} (h : RequestReserved s preparation → After (f ()) s (Outcome s effect)) : After
    (checkRequestReservation preparation >>= f) s (Outcome s effect) := by
  unfold checkRequestReservation
  split
  case h_1 hnone => exact h fun id hid => (by rw [hnone] at hid; cases hid)
  case h_2 id hid =>
    rw [bind_assoc, after_getRequest, after_raiseIf]
    split
    · exact .refl s
    case isFalse hreserved =>
      refine h fun id' hid' => ?_
      obtain rfl := Option.some.inj (hid.symm.trans hid')
      cases hrecord : s.requests.get? id with
      | none => simp [hrecord] at hreserved
      | some record => exact ⟨record, rfl, by simpa [hrecord] using hreserved⟩

theorem committed_eq (preparation : AgentCommunicationPreparation) (receipt : CommitReceipt) :
    s.committed env preparation receipt =
      { s with requests := (s.committed env preparation receipt).requests } := by
  unfold AgentRequestState.committed
  rw [assignNamed_eq, assignNamed_eq preparation.inReplyToRequestId]

/-- A write of the committed requests that fails puts the old ones back. -/
theorem after_persistCommit {preparation : AgentCommunicationPreparation} {receipt : CommitReceipt}
    {f : Unit → Operation α} {effect : α → AgentRequestState → Prop}
    (hok : After (f ()) (s.committed env preparation receipt).written (Outcome s effect)) :
    After (Operation.persistOr env
        (Operation.restoreRequests (s.before [preparation.requestId, preparation.inReplyToRequestId])) >>= f)
      (s.committed env preparation receipt) (Outcome s effect) := by
  refine after_persistOr (fun _ => hok) ?_
  rw [← bind_pure (Operation.restoreRequests _), after_restoreRequests]
  intro failure
  show Alike s _
  rw [committed_eq]
  exact .restoreBefore get?_committed

/-- The second half of a commit, in the ledger `s'` that the first half has left. -/
theorem after_finishCommit {preparation : AgentCommunicationPreparation} {receipt : CommitReceipt}
    {repliedRequest : Option AgentRequestRecord}
    (hs' : s' = s.assignNamed preparation.inReplyToRequestId (replied env preparation))
    (hrequest : RequestReserved s preparation)
    (hreplied : repliedRequest.isSome = (presentText preparation.inReplyToRequestId).isSome) :
    After (finishCommit env preparation receipt
        (s.before [preparation.requestId, preparation.inReplyToRequestId]) repliedRequest) s'
      (Outcome s fun _ s'' =>
        s'' = if isTracked preparation then (s.committed env preparation receipt).written else s) := by
  subst hs'
  unfold finishCommit commitRequest
  cases hid : presentText preparation.requestId with
  | none =>
    rw [pure_bind]
    have hcommitted : s.assignNamed preparation.inReplyToRequestId (replied env preparation) =
        s.committed env preparation receipt := by
      simp only [AgentRequestState.committed, assignNamed, hid]
    cases hreply : (presentText preparation.inReplyToRequestId).isSome with
    | true =>
      rw [hreply] at hreplied
      rw [hcommitted]
      simp only [hreplied, if_true, Option.isSome_none, Bool.or_false]
      exact after_persistCommit (by simp [Outcome, isTracked, hid, hreply])
    | false =>
      have hsame : s.assignNamed preparation.inReplyToRequestId (replied env preparation) = s := by
        simp only [assignNamed, Option.isNone_iff_eq_none.mp (by simpa using hreply)]
      rw [hreply] at hreplied
      rw [hsame]
      simp only [hreplied, Option.isSome_none, Bool.or_false, Bool.false_eq_true, if_false]
      show _ = _
      simp [isTracked, hid, hreply]
  | some id =>
    obtain ⟨record, hrecord, hdelivery, hstatus⟩ := hrequest id hid
    -- the reply may have changed the same request, but neither its delivery nor to `cancelled`
    obtain ⟨current, hcurrent, hdelivery', hstatus'⟩ : ∃ current,
        (s.assignNamed preparation.inReplyToRequestId (replied env preparation)).requests.get? id = some current ∧
          current.deliveryId = preparation.deliveryId ∧ current.status ≠ .cancelled := by
      rw [get?_assignNamed, hrecord, Option.map_some]
      refine ⟨_, rfl, ?_⟩
      split
      · exact ⟨hdelivery, by simp [replied]⟩
      · exact ⟨hdelivery, hstatus⟩
    have hcommitted : (s.assignNamed preparation.inReplyToRequestId (replied env preparation)).assignRequest id
        (delivered env receipt) = s.committed env preparation receipt := by
      simp only [AgentRequestState.committed, assignNamed, hid]
    simp only [bind_assoc, after_getRequest, hcurrent, after_raiseIf, hdelivery', ne_eq, not_true_eq_false,
      decide_false, Bool.false_eq_true, if_false, hstatus', after_assignRequest, pure_bind, Option.isSome_some,
      Bool.or_true, if_true, hcommitted]
    exact after_persistCommit (by simp [Outcome, isTracked, hid])

theorem after_commit {preparation : AgentCommunicationPreparation} {receipt : CommitReceipt} :
    After (commit env preparation receipt) s (Outcome s fun _ s' => Committed env preparation receipt s s') := by
  unfold commit
  rw [after_requestsBefore]
  refine after_checkRequestReservation fun hrequest => ?_
  cases hid : presentText preparation.inReplyToRequestId with
  | none =>
    have hreply : ReplyReserved s preparation := fun id h => (by rw [hid] at h; cases h)
    have hkept : s = s.assignNamed preparation.inReplyToRequestId (replied env preparation) := by
      simp only [assignNamed, hid]
    refine (after_finishCommit hkept hrequest (by rw [hid]; rfl)).mono
      fun outcome s' h => ?_
    cases outcome with
    | ok _ => exact h ▸ .now hrequest hreply
    | error _ => exact h
  | some id =>
    dsimp only
    rw [after_getRequest]
    split
    · exact .refl s
    case h_2 current hcurrent =>
      split
      case isTrue halready =>
        have hdone : Committed env preparation receipt s s := .already hid hcurrent halready
        cases presentText preparation.requestId <;> exact hdone
      case isFalse hnot =>
        rw [after_raiseIf]
        split
        · exact .refl s
        case isFalse hpending =>
          have hreply : ReplyReserved s preparation := by
            intro id' hid'
            obtain rfl := Option.some.inj (hid.symm.trans hid')
            exact ⟨current, hcurrent, by simpa using hpending, by simpa using hnot⟩
          rw [after_assignRequest]
          refine (after_finishCommit (by simp only [assignNamed, hid]) hrequest (by rw [hid]; rfl)).mono
            fun outcome s' h => ?_
          cases outcome with
          | ok _ => exact h ▸ .now hrequest hreply
          | error _ => exact h

end RabiRoute.AgentRequests
