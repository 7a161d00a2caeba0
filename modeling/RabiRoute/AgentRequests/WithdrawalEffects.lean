import RabiRoute.AgentRequests.RequestEffects

/-!
# What the operations that end a delivery do

Aborts take back what a preparation has reserved, cancellations end a request with its deliveries, and a
receipt commits a delivery with its requests.
-/

open Collections Interleave

namespace RabiRoute.AgentRequests

open AgentRequestState

variable {functions : Functions} {env : Env} {s s' : AgentRequestState} {id : JsString} {α : Type}

/-! ## Aborts -/

namespace AgentRequestState

/-- The request that the preparation answers waits for it. -/
def awaitsReply (s : AgentRequestState) (preparation : AgentCommunicationPreparation) : Bool :=
  (s.named preparation.inReplyToRequestId).any fun record ↦
    record.pendingResponseDeliveryId = some preparation.deliveryId

/-- The request that the preparation opened is not delivered. -/
def undelivered (s : AgentRequestState) (preparation : AgentCommunicationPreparation) : Bool :=
  (s.named preparation.requestId).any fun record ↦
    record.status = .pending_delivery && record.deliveryId = preparation.deliveryId

def replyAborted (s : AgentRequestState) (env : Env) (preparation : AgentCommunicationPreparation) :
    AgentRequestState :=
  if s.awaitsReply preparation then s.assignNamed preparation.inReplyToRequestId (released env) else s

def eraseNamed (s : AgentRequestState) (name : Option JsString) : AgentRequestState :=
  match presentText name with
  | none => s
  | some id => { s with requests := s.requests.erase id }

def requestAborted (s : AgentRequestState) (preparation : AgentCommunicationPreparation) : AgentRequestState :=
  if s.undelivered preparation then s.eraseNamed preparation.requestId else s

def deliveryAborted (s : AgentRequestState) (preparation : AgentCommunicationPreparation) : AgentRequestState :=
  if (s.deliveries.get? preparation.deliveryId).isSome then
    { s with deliveries := s.deliveries.erase preparation.deliveryId }
  else s

/-- The ledger without what the preparation has reserved. -/
def aborted (s : AgentRequestState) (env : Env) (preparation : AgentCommunicationPreparation) : AgentRequestState :=
  ((s.deliveryAborted preparation).replyAborted env preparation).requestAborted preparation

/-- There is something to take back. -/
def abortable (s : AgentRequestState) (env : Env) (preparation : AgentCommunicationPreparation) : Bool :=
  (s.deliveries.get? preparation.deliveryId).isSome || (s.deliveryAborted preparation).awaitsReply preparation ||
    ((s.deliveryAborted preparation).replyAborted env preparation).undelivered preparation

end AgentRequestState

theorem after_abortReply {preparation : AgentCommunicationPreparation} {f : Bool → Operation α}
    {post : Except Failure α → AgentRequestState → Prop} :
    After (abortReply env preparation >>= f) s post ↔
      After (f (s.awaitsReply preparation)) (s.replyAborted env preparation) post := by
  unfold abortReply replyAborted awaitsReply named assignNamed
  cases presentText preparation.inReplyToRequestId with
  | none => exact Iff.rfl
  | some id =>
    simp only [bind_assoc, after_getRequest, Option.bind_some]
    cases s.requests.get? id with
    | none => exact Iff.rfl
    | some record =>
      cases hpending : decide (record.pendingResponseDeliveryId = some preparation.deliveryId) <;>
        simp only [Option.any_some, hpending, Bool.false_eq_true, if_true, if_false, bind_assoc, pure_bind,
          after_assignRequest]

theorem after_abortRequest {preparation : AgentCommunicationPreparation} {f : Bool → Operation α}
    {post : Except Failure α → AgentRequestState → Prop} :
    After (abortRequest preparation >>= f) s post ↔
      After (f (s.undelivered preparation)) (s.requestAborted preparation) post := by
  unfold abortRequest requestAborted undelivered named eraseNamed
  cases presentText preparation.requestId with
  | none => exact Iff.rfl
  | some id =>
    simp only [bind_assoc, after_getRequest, Option.bind_some]
    cases s.requests.get? id with
    | none => exact Iff.rfl
    | some record =>
      cases hpending : decide (record.status = .pending_delivery) && decide (record.deliveryId = preparation.deliveryId) <;>
        simp only [Option.any_some, hpending, Bool.false_eq_true, if_true, if_false, bind_assoc, pure_bind,
          after_deleteRequest]

theorem after_deleteDeliveryIf {preparation : AgentCommunicationPreparation} {f : Unit → Operation α}
    {post : Except Failure α → AgentRequestState → Prop} :
    After (if (s.deliveries.get? preparation.deliveryId).isSome then
        Operation.deleteDelivery preparation.deliveryId >>= f
      else Program.ret () >>= f) s post ↔ After (f ()) (s.deliveryAborted preparation) post := by
  unfold deliveryAborted
  split <;> exact Iff.rfl

/-- What an abort does to a request: nothing, or it releases or deletes one that the preparation names. -/
inductive RequestAborted (env : Env) (preparation : AgentCommunicationPreparation) (id : JsString) :
    Option AgentRequestRecord → Option AgentRequestRecord → Prop where
  | kept (record : Option AgentRequestRecord) : RequestAborted env preparation id record record
  | released {record : AgentRequestRecord} : presentText preparation.inReplyToRequestId = some id →
      record.pendingResponseDeliveryId = some preparation.deliveryId →
      RequestAborted env preparation id (some record) (some (released env record))
  | deleted {record : AgentRequestRecord} : presentText preparation.requestId = some id →
      record.status = .pending_delivery → record.deliveryId = preparation.deliveryId →
      RequestAborted env preparation id (some record) none

theorem requests_deliveryAborted (preparation : AgentCommunicationPreparation) :
    (s.deliveryAborted preparation).requests = s.requests := by
  unfold deliveryAborted
  split <;> rfl

theorem deliveries_replyAborted (preparation : AgentCommunicationPreparation) :
    (s.replyAborted env preparation).deliveries = s.deliveries := by
  unfold replyAborted
  split
  · rw [assignNamed_eq]
  · rfl

theorem deliveries_requestAborted (preparation : AgentCommunicationPreparation) :
    (s.requestAborted preparation).deliveries = s.deliveries := by
  unfold requestAborted eraseNamed
  split
  · split <;> rfl
  · rfl

theorem get?_replyAborted (env : Env) (s : AgentRequestState) (preparation : AgentCommunicationPreparation) (id : JsString) :
    RequestAborted env preparation id (s.requests.get? id) ((s.replyAborted env preparation).requests.get? id) := by
  unfold replyAborted
  split
  case isFalse => exact .kept _
  case isTrue hawaits =>
    rw [get?_assignNamed]
    cases hrecord : s.requests.get? id with
    | none => exact .kept none
    | some record =>
      rw [Option.map_some]
      split
      case isFalse => exact .kept _
      case isTrue hid =>
        refine .released hid ?_
        simpa only [awaitsReply, named, hid, Option.bind_some, hrecord, Option.any_some, decide_eq_true_eq] using hawaits

theorem get?_requestAborted (s : AgentRequestState) (preparation : AgentCommunicationPreparation) (id : JsString) :
    (s.requestAborted preparation).requests.get? id = s.requests.get? id ∨
      ∃ record, s.requests.get? id = some record ∧ presentText preparation.requestId = some id ∧
        record.status = .pending_delivery ∧ record.deliveryId = preparation.deliveryId ∧
        (s.requestAborted preparation).requests.get? id = none := by
  unfold requestAborted
  split
  case isFalse => exact .inl rfl
  case isTrue hundelivered =>
    unfold eraseNamed
    split
    case h_1 => exact .inl rfl
    case h_2 name hname =>
      show (s.requests.erase name).get? id = _ ∨ _
      rw [InsertionMap.get?_erase]
      by_cases hid : id = name
      · subst hid
        simp only [undelivered, named, hname, Option.bind_some] at hundelivered
        cases hrecord : s.requests.get? id with
        | none => exact .inl (by simp)
        | some record =>
          simp only [hrecord, Option.any_some, Bool.and_eq_true, decide_eq_true_eq] at hundelivered
          exact .inr ⟨record, rfl, hname, hundelivered.1, hundelivered.2, if_pos rfl⟩
      · exact .inl (if_neg hid)

theorem get?_aborted (env : Env) (s : AgentRequestState) (preparation : AgentCommunicationPreparation) (id : JsString) :
    RequestAborted env preparation id (s.requests.get? id) ((s.aborted env preparation).requests.get? id) := by
  have hreply := get?_replyAborted env (s.deliveryAborted preparation) preparation id
  rw [requests_deliveryAborted] at hreply
  unfold AgentRequestState.aborted
  rcases get?_requestAborted ((s.deliveryAborted preparation).replyAborted env preparation) preparation id with hsame | ⟨record, hrecord, hid, hstatus, hdelivery, hnone⟩
  · exact hsame ▸ hreply
  · rw [hnone]
    rw [hrecord] at hreply
    -- a release leaves the status and the delivery of the request
    generalize hbefore : s.requests.get? id = before at hreply
    cases hreply with
    | kept => exact .deleted hid hstatus hdelivery
    | released => exact .deleted hid hstatus hdelivery

theorem get?_deliveries_aborted {preparation : AgentCommunicationPreparation} (id : JsString) :
    (s.aborted env preparation).deliveries.get? id =
      if id = preparation.deliveryId then none else s.deliveries.get? id := by
  unfold AgentRequestState.aborted
  rw [deliveries_requestAborted, deliveries_replyAborted]
  unfold deliveryAborted
  split
  case isTrue => exact InsertionMap.get?_erase
  case isFalse hnone =>
    split
    case isTrue hid => rw [hid, Option.not_isSome_iff_eq_none.mp hnone]
    case isFalse => rfl

/-- Only records differ. -/
structure OnlyRecords (s s' : AgentRequestState) : Prop where
  unavailable : s'.unavailableDeliveryIds = s.unavailableDeliveryIds
  quarantinedDeliveries : s'.quarantinedDeliveries = s.quarantinedDeliveries
  quarantinedRequests : s'.quarantinedRequests = s.quarantinedRequests
  reason : s'.deliveryEvidenceUnavailableReason = s.deliveryEvidenceUnavailableReason
  file : s'.file = s.file

theorem OnlyRecords.refl (s : AgentRequestState) : OnlyRecords s s := ⟨rfl, rfl, rfl, rfl, rfl⟩

theorem OnlyRecords.trans {s'' : AgentRequestState} (h : OnlyRecords s s') (h' : OnlyRecords s' s'') :
    OnlyRecords s s'' :=
  ⟨h'.unavailable.trans h.unavailable, h'.quarantinedDeliveries.trans h.quarantinedDeliveries,
    h'.quarantinedRequests.trans h.quarantinedRequests, h'.reason.trans h.reason, h'.file.trans h.file⟩

/-- Records that are put back make the ledger what it was. -/
theorem OnlyRecords.alike (h : OnlyRecords s s') (hrequests : ∀ id, s'.requests.get? id = s.requests.get? id)
    (hdeliveries : ∀ id, s'.deliveries.get? id = s.deliveries.get? id) : Alike s s' :=
  ⟨hrequests, hdeliveries, h.unavailable, h.quarantinedDeliveries, h.quarantinedRequests, h.reason, h.file⟩

theorem onlyRecords_assignRequest (id : JsString) (change : AgentRequestRecord → AgentRequestRecord) :
    OnlyRecords s (s.assignRequest id change) := by
  unfold assignRequest
  split <;> exact ⟨rfl, rfl, rfl, rfl, rfl⟩

theorem onlyRecords_assignNamed (name : Option JsString) (change : AgentRequestRecord → AgentRequestRecord) :
    OnlyRecords s (s.assignNamed name change) := by
  unfold assignNamed
  split
  · exact .refl s
  · exact onlyRecords_assignRequest _ _

theorem onlyRecords_assignDelivery (id : JsString) (change : PreparedEndpointDelivery → PreparedEndpointDelivery) :
    OnlyRecords s (s.assignDelivery id change) := by
  unfold assignDelivery
  split <;> exact ⟨rfl, rfl, rfl, rfl, rfl⟩

theorem onlyRecords_aborted (env : Env) (s : AgentRequestState) (preparation : AgentCommunicationPreparation) :
    OnlyRecords s (s.aborted env preparation) := by
  have hdelivery : OnlyRecords s (s.deliveryAborted preparation) := by
    unfold deliveryAborted
    split <;> exact ⟨rfl, rfl, rfl, rfl, rfl⟩
  have hreply : OnlyRecords (s.deliveryAborted preparation) ((s.deliveryAborted preparation).replyAborted env preparation) := by
    unfold replyAborted
    split
    · exact onlyRecords_assignNamed _ _
    · exact .refl _
  refine hdelivery.trans (hreply.trans ?_)
  show OnlyRecords _ (requestAborted _ _)
  unfold requestAborted eraseNamed
  split
  · split <;> exact ⟨rfl, rfl, rfl, rfl, rfl⟩
  · exact .refl _

/-- The rollback of an abort puts back the requests and the delivery. -/
theorem alike_restoreAborted {preparation : AgentCommunicationPreparation} (hkeyed : Keyed s) :
    After (do
      Operation.restoreRequests (s.before [preparation.requestId, preparation.inReplyToRequestId])
      restoreDelivery (s.deliveries.get? preparation.deliveryId)) (s.aborted env preparation)
      fun _ s' => Alike s s' := by
  have hframe := onlyRecords_aborted env s preparation
  have hrequests : ∀ id, ((s.aborted env preparation).requests.setAll
      (s.before [preparation.requestId, preparation.inReplyToRequestId])).get? id = s.requests.get? id := by
    intro id
    rw [InsertionMap.get?_setAll_of_agree before_agree]
    split
    · rfl
    case isFalse hnot =>
      have habort := get?_aborted env s preparation id
      generalize hbefore : s.requests.get? id = before at habort
      generalize (s.aborted env preparation).requests.get? id = after at habort
      cases habort with
      | kept => rfl
      | released hid => exact absurd (mem_before (by simp) hid hbefore) hnot
      | deleted hid => exact absurd (mem_before (by simp) hid hbefore) hnot
  rw [after_restoreRequests]
  unfold restoreDelivery
  split
  case h_1 hnone =>
    refine OnlyRecords.alike ⟨hframe.unavailable, hframe.quarantinedDeliveries, hframe.quarantinedRequests,
      hframe.reason, hframe.file⟩ hrequests fun id => ?_
    show (s.aborted env preparation).deliveries.get? id = _
    rw [get?_deliveries_aborted]
    split
    case isTrue hid => rw [hid, hnone]
    case isFalse => rfl
  case h_2 delivery hdelivery =>
    refine OnlyRecords.alike ⟨hframe.unavailable, hframe.quarantinedDeliveries, hframe.quarantinedRequests,
      hframe.reason, hframe.file⟩ hrequests fun id => ?_
    show ((s.aborted env preparation).deliveries.set delivery.deliveryId delivery).get? id = _
    rw [InsertionMap.get?_set, get?_deliveries_aborted, hkeyed.deliveries _ _ hdelivery]
    split
    case isTrue hid => rw [hid, hdelivery]
    case isFalse => rfl

theorem aborted_eq_self {preparation : AgentCommunicationPreparation} (h : s.abortable env preparation = false) :
    s.aborted env preparation = s := by
  unfold abortable at h
  simp only [Bool.or_eq_false_iff] at h
  have hdelivery : s.deliveryAborted preparation = s := by
    unfold deliveryAborted
    simp only [h.1.1, Bool.false_eq_true, if_false]
  rw [hdelivery] at h
  have hreply : s.replyAborted env preparation = s := by
    unfold replyAborted
    simp only [h.1.2, Bool.false_eq_true, if_false]
  rw [hreply] at h
  unfold AgentRequestState.aborted requestAborted
  rw [hdelivery, hreply]
  simp only [h.2, Bool.false_eq_true, if_false]

theorem after_abort {preparation : AgentCommunicationPreparation} (hkeyed : Keyed s) :
    After (abort env preparation) s (Outcome s fun _ s' =>
      (∀ delivery, s.deliveries.get? preparation.deliveryId = some delivery → delivery.state = .prepared) ∧
        s' = if s.abortable env preparation then (s.aborted env preparation).written else s) := by
  unfold abort
  rw [after_getDelivery, after_raiseIf]
  split
  · exact .refl s
  case isFalse hprepared =>
    have hstate : ∀ delivery, s.deliveries.get? preparation.deliveryId = some delivery →
        delivery.state = .prepared := by
      intro delivery hdelivery
      simpa [hdelivery] using hprepared
    rw [after_requestsBefore]
    refine after_deleteDeliveryIf.mpr ?_
    rw [after_abortReply, after_abortRequest]
    split
    case isTrue hchanged =>
      refine after_persistOr_tail (fun _ => ⟨hstate, ?_⟩) ?_
      · exact (if_pos hchanged).symm
      · exact (alike_restoreAborted hkeyed).mono fun _ _ h _ => h
    case isFalse hchanged =>
      refine ⟨hstate, ?_⟩
      show s.aborted env preparation = if s.abortable env preparation then _ else s
      rw [if_neg (by exact hchanged)]
      exact aborted_eq_self (by simpa [abortable] using hchanged)

/-! ## Cancellations -/

def affectedEntries (s : AgentRequestState) (record : AgentRequestRecord) : List (JsString × PreparedEndpointDelivery) :=
  s.deliveries.entries.filter fun entry ↦ affected record.id entry.2

/-- What a cancellation of a request does to each delivery. -/
def untrackAffected (env : Env) (reason : Option JsString) (record : AgentRequestRecord)
    (delivery : PreparedEndpointDelivery) : PreparedEndpointDelivery :=
  if affected record.id delivery then untracked env ((cleanText 1024 reason).getD trackingCancelled) delivery
  else delivery

/-- The ledger without the request and its deliveries. -/
def AgentRequestState.withdrawing (s : AgentRequestState) (env : Env) (reason : Option JsString) (id : JsString)
    (record : AgentRequestRecord) : AgentRequestState :=
  { s.assignDeliveries (untracked env ((cleanText 1024 reason).getD trackingCancelled))
      ((affectedEntries s record).map Prod.fst) with
    requests := s.requests.set id (withdrawn env (cleanText 2000 reason) record) }

theorem onlyRecords_assignDeliveries (ids : List JsString)
    (change : PreparedEndpointDelivery → PreparedEndpointDelivery) : OnlyRecords s (s.assignDeliveries change ids) := by
  induction ids generalizing s with
  | nil => exact .refl s
  | cons id ids ih => exact (onlyRecords_assignDelivery id change).trans ih

theorem requests_assignDeliveries (ids : List JsString) (change : PreparedEndpointDelivery → PreparedEndpointDelivery) :
    (s.assignDeliveries change ids).requests = s.requests := by
  induction ids generalizing s with
  | nil => rfl
  | cons id ids ih =>
    refine (ih (s := s.assignDelivery id change)).trans ?_
    unfold assignDelivery
    split <;> rfl

theorem assignRequest_assignDeliveries {record : AgentRequestRecord} {ids : List JsString}
    {change : PreparedEndpointDelivery → PreparedEndpointDelivery} {f : AgentRequestRecord → AgentRequestRecord}
    (h : s.requests.get? id = some record) :
    (s.assignDeliveries change ids).assignRequest id f =
      { s.assignDeliveries change ids with requests := s.requests.set id (f record) } := by
  rw [← requests_assignDeliveries ids change] at h
  rw [assignRequest_eq h, requests_assignDeliveries]

theorem get?_assignDeliveries {change : PreparedEndpointDelivery → PreparedEndpointDelivery} {ids : List JsString}
    (hids : ids.Nodup) (id : JsString) :
    (s.assignDeliveries change ids).deliveries.get? id =
      (s.deliveries.get? id).map fun delivery => if id ∈ ids then change delivery else delivery := by
  induction ids generalizing s with
  | nil =>
    show s.deliveries.get? id = _
    simp
  | cons id' ids ih =>
    rw [List.nodup_cons] at hids
    refine (ih hids.2).trans ?_
    rw [get?_assignDelivery, Option.map_map]
    refine congrArg (Option.map · (s.deliveries.get? id)) (funext fun delivery => ?_)
    by_cases hid : id = id'
    · subst hid
      simp only [Function.comp_apply, hids.1, List.mem_cons, true_or, if_true, if_false]
    · simp only [Function.comp_apply, hid, List.mem_cons, false_or, if_false]

theorem affectedEntries_nodup (record : AgentRequestRecord) : ((affectedEntries s record).map Prod.fst).Nodup :=
  s.deliveries.nodup.sublist (List.filter_sublist.map _)

theorem mem_affectedEntries {record : AgentRequestRecord} {delivery : PreparedEndpointDelivery} (h : s.deliveries.get?
    id = some delivery) : id ∈ (affectedEntries s record).map Prod.fst ↔ affected record.id delivery = true := by
  rw [List.mem_map]
  constructor
  · rintro ⟨⟨id', delivery'⟩, hmem, rfl⟩
    obtain ⟨hentry, haffected⟩ := List.mem_filter.mp hmem
    obtain rfl := InsertionMap.entry_unique hentry (InsertionMap.get?_eq_some.mp h)
    exact haffected
  · intro haffected
    exact ⟨(id, delivery), List.mem_filter.mpr ⟨InsertionMap.get?_eq_some.mp h, haffected⟩, rfl⟩

theorem get?_deliveries_withdrawing {reason : Option JsString} {id' : JsString} {record : AgentRequestRecord} :
    (s.withdrawing env reason id' record).deliveries.get? id =
      (s.deliveries.get? id).map (untrackAffected env reason record) := by
  refine (get?_assignDeliveries (affectedEntries_nodup record) id).trans ?_
  cases hdelivery : s.deliveries.get? id with
  | none => rfl
  | some delivery => simp only [Option.map_some, untrackAffected, mem_affectedEntries hdelivery]

theorem onlyRecords_withdrawing (s : AgentRequestState) (env : Env) (reason : Option JsString) (id : JsString) (record :
    AgentRequestRecord) : OnlyRecords s (s.withdrawing env reason id record) :=
  (onlyRecords_assignDeliveries _ _).trans ⟨rfl, rfl, rfl, rfl, rfl⟩

/-- What a cancellation does when it returns. -/
inductive Cancelled (env : Env) (reason : Option JsString) (id : JsString) (s : AgentRequestState) :
    AgentRequestState → Prop where
  | already {record : AgentRequestRecord} : s.requests.get? id = some record →
      record.status = .responded ∨ record.status = .cancelled → Cancelled env reason id s s
  | now {record : AgentRequestRecord} : s.requests.get? id = some record →
      record.status ≠ .responded → record.status ≠ .cancelled →
      Cancelled env reason id s (s.withdrawing env reason id record).written

/-- The rollback of a cancellation puts back the request and its deliveries. -/
theorem alike_restoreWithdrawn {reason : Option JsString} {record : AgentRequestRecord} (hkeyed : Keyed s)
    (h : s.requests.get? id = some record) :
    After (do
      Operation.setRequest record.id record
      restoreDeliveries ((affectedEntries s record).map Prod.snd)) (s.withdrawing env reason id record)
      fun _ s' => Alike s s' := by
  have hframe := onlyRecords_withdrawing s env reason id record
  have hentries : ((affectedEntries s record).map Prod.snd).map (fun delivery => (delivery.deliveryId, delivery)) =
      affectedEntries s record := by
    rw [List.map_map]
    refine (List.map_congr_left fun entry hentry => ?_).trans (List.map_id _)
    have hget := InsertionMap.get?_eq_some.mpr (List.mem_filter.mp hentry).1
    simp only [Function.comp_apply, hkeyed.deliveries _ _ hget, id_eq]
  rw [after_setRequest, ← bind_pure (restoreDeliveries _), after_restoreDeliveries, hentries,
    hkeyed.requests id record h]
  refine OnlyRecords.alike ⟨hframe.unavailable, hframe.quarantinedDeliveries, hframe.quarantinedRequests,
    hframe.reason, hframe.file⟩ (fun id' => ?_) fun id' => ?_
  · show ((s.requests.set id _).set id record).get? id' = _
    rw [InsertionMap.get?_set, InsertionMap.get?_set]
    split
    case isTrue hid => rw [hid, h]
    case isFalse => rfl
  · show ((s.withdrawing env reason id record).deliveries.setAll (affectedEntries s record)).get? id' = _
    have hagree : ∀ entry ∈ affectedEntries s record, s.deliveries.get? entry.1 = some entry.2 :=
      fun entry hentry => InsertionMap.get?_eq_some.mpr (List.mem_filter.mp hentry).1
    rw [InsertionMap.get?_setAll_of_agree hagree]
    split
    · rfl
    case isFalse hnot =>
      rw [get?_deliveries_withdrawing]
      cases hdelivery : s.deliveries.get? id' with
      | none => rfl
      | some delivery =>
        rw [mem_affectedEntries hdelivery] at hnot
        rw [Option.map_some, untrackAffected, if_neg hnot]

theorem after_cancel {requestId : JsString} {reason : Option JsString} {f : AgentRequestRecord → Operation α}
    {effect : α → AgentRequestState → Prop} (hkeyed : Keyed s)
    (h : ∀ record s', Cancelled env reason (cleanTextOr 100 (some requestId)) s s' →
      After (f record) s' (Outcome s effect)) :
    After (cancel env requestId reason >>= f) s (Outcome s effect) := by
  unfold cancel
  rw [bind_assoc, after_getRequest]
  split
  · exact .refl s
  case h_2 record hrecord =>
    split
    case isTrue hdone =>
      rw [pure_bind]
      exact h record s (.already hrecord (by simpa using hdone))
    case isFalse hopen =>
      simp only [Bool.or_eq_true, decide_eq_true_eq, not_or] at hopen
      simp only [bind_assoc, after_deliveryEntries, after_assignDeliveries, after_assignRequest]
      rw [assignRequest_assignDeliveries hrecord]
      refine after_persistOr (fun _ => ?_) ?_
      · rw [pure_bind]
        exact h _ _ (.now hrecord hopen.1 hopen.2)
      · exact (alike_restoreWithdrawn hkeyed hrecord).mono fun _ _ h _ => h

/-- What `cancelEndpointDelivery` does when it returns. -/
inductive DeliveryCancelled (functions : Functions) (env : Env) (id : JsString) (s : AgentRequestState) :
    AgentRequestState → Prop where
  | already {delivery : PreparedEndpointDelivery} : s.deliveries.get? id = some delivery →
      delivery.state = .cancelled → DeliveryCancelled functions env id s s
  | linked {delivery : PreparedEndpointDelivery} {linked : AgentRequestRecord} {s' : AgentRequestState} :
      s.deliveries.get? id = some delivery → delivery.state ≠ .committed → delivery.state ≠ .cancelled →
      delivery.receipt = none →
      linkedRequest functions delivery id (s.named delivery.preparation.requestId)
        (s.named delivery.preparation.inReplyToRequestId) = .ok (some linked) →
      linked.status ≠ .responded → linked.status ≠ .cancelled →
      Cancelled env (some trackingCancelled) (cleanTextOr 100 (some linked.id)) s s' →
      DeliveryCancelled functions env id s s'
  | unlinked {delivery : PreparedEndpointDelivery} {linked : Option AgentRequestRecord} :
      s.deliveries.get? id = some delivery → delivery.state ≠ .committed → delivery.state ≠ .cancelled →
      delivery.receipt = none →
      linkedRequest functions delivery id (s.named delivery.preparation.requestId)
        (s.named delivery.preparation.inReplyToRequestId) = .ok linked →
      (∀ record, linked = some record → record.status = .responded ∨ record.status = .cancelled) →
      DeliveryCancelled functions env id s
        { s with deliveries := s.deliveries.set id (untracked env trackingCancelled delivery) }.written

theorem after_cancelEndpointDelivery (hkeyed : Keyed s) :
    After (cancelEndpointDelivery functions env id) s (Outcome s fun _ s' =>
      DeliveryCancelled functions env id s s') := by
  unfold cancelEndpointDelivery
  rw [after_getDelivery]
  split
  · exact .refl s
  case h_2 delivery hdelivery =>
    rw [after_raiseIf]
    split
    · exact .refl s
    case isFalse hreceived =>
      simp only [Bool.or_eq_true, decide_eq_true_eq, not_or, Option.not_isSome_iff_eq_none] at hreceived
      split
      case isTrue hcancelled => exact .already hdelivery hcancelled
      case isFalse hcancelled =>
        rw [after_getNamedRequest, after_getNamedRequest, after_ofExcept]
        split
        case h_2 => exact .refl s
        case h_1 linked hlinked =>
          split
          case h_1 record hrecord =>
            obtain ⟨rfl, hopen⟩ := Option.filter_eq_some_iff.mp hrecord
            simp only [Bool.and_eq_true, decide_eq_true_eq] at hopen
            refine after_cancel hkeyed fun _ s' hs' => ?_
            rw [← bind_pure (Operation.getDelivery id), after_getDelivery]
            exact .linked hdelivery hreceived.1 hcancelled hreceived.2 hlinked hopen.1 hopen.2 hs'
          case h_2 hnone =>
            refine after_changeDelivery hdelivery fun _ => ?_
            rw [← bind_pure (Operation.getDelivery id), after_getDelivery]
            refine .unlinked hdelivery hreceived.1 hcancelled hreceived.2 hlinked ?_
            rintro record rfl
            simpa [Option.filter_eq_none_iff, or_iff_not_imp_left] using hnone

/-! ## Receipts -/

/-- What `commitEndpointReceipt` does when it returns. -/
inductive ReceiptCommitted (functions : Functions) (env : Env) (receipt : EndpointDeliveryReceipt) (id : JsString)
    (s : AgentRequestState) : AgentRequestState → Prop where
  | already {delivery : PreparedEndpointDelivery} : s.activeDelivery functions id = .ok delivery →
      receiptMatches receipt delivery = true → delivery.state = .committed →
      ReceiptCommitted functions env receipt id s s
  | now {delivery : PreparedEndpointDelivery} {s' : AgentRequestState} : s.activeDelivery functions id = .ok delivery →
      receiptMatches receipt delivery = true → delivery.state = .dispatching →
      Committed env delivery.preparation { action := some receipt.action, transport := some receipt.transport }
        { s with deliveries := s.deliveries.set id (received env receipt delivery) } s' →
      ReceiptCommitted functions env receipt id s (if isTracked delivery.preparation then s' else s'.written)

theorem Committed.of_untracked {preparation : AgentCommunicationPreparation} {receipt : CommitReceipt}
    (h : isTracked preparation = false) (hs' : Committed env preparation receipt s s') : s' = s := by
  cases hs' with
  | already => rfl
  | now => simp only [h, Bool.false_eq_true, if_false]

/-- A commit that fails, or a write after it, leaves the delivery to be put back. -/
theorem alike_restoreReceived {delivery delivery' : PreparedEndpointDelivery}
    (h : s.deliveries.get? id = some delivery)
    (hs' : Alike { s with deliveries := s.deliveries.set id delivery' } s') :
    Alike s { s' with deliveries := s'.deliveries.set id delivery } := by
  refine ⟨hs'.requests, fun id' => ?_, hs'.unavailable, hs'.quarantinedDeliveries, hs'.quarantinedRequests, hs'.reason,
    hs'.file⟩
  show (s'.deliveries.set id delivery).get? id' = _
  rw [InsertionMap.get?_set, hs'.deliveries, InsertionMap.get?_set]
  split
  case isTrue hid => rw [hid, h]
  case isFalse => rfl

theorem after_commitEndpointReceipt {receipt : EndpointDeliveryReceipt} :
    After (commitEndpointReceipt functions env id receipt) s (Outcome s fun _ s' =>
      ReceiptCommitted functions env receipt id s s') := by
  unfold commitEndpointReceipt
  rw [after_assertEndpointDeliveryActive]
  split
  case h_2 => exact .refl s
  case h_1 delivery hactive =>
    have hdelivery := (activeDelivery_ok hactive).1
    rw [after_raiseIf]
    split
    · exact .refl s
    case isFalse hmatches =>
      rw [Bool.not_eq_true', Bool.not_eq_false] at hmatches
      split
      case isTrue hcommitted => exact .already hactive hmatches hcommitted
      case isFalse =>
        rw [after_raiseIf]
        split
        · exact .refl s
        case isFalse hdispatching =>
          rw [decide_eq_true_eq, ne_eq, not_not] at hdispatching
          rw [after_assignDelivery, assignDelivery_eq hdelivery]
          refine Program.after_handle.mpr (after_bind.mpr (after_commit.mono fun outcome s' hs' => ?_))
          cases outcome with
          | error failure => exact alike_restoreReceived hdelivery hs'
          | ok _ =>
            have hdone : ReceiptCommitted functions env receipt id s
                (if isTracked delivery.preparation then s' else s'.written) := .now hactive hmatches hdispatching hs'
            unfold isTracked at hdone
            dsimp only
            split
            case isTrue htracked =>
              rw [if_pos htracked] at hdone
              exact hdone
            case isFalse htracked =>
              rw [if_neg htracked] at hdone
              obtain rfl := Committed.of_untracked (Bool.eq_false_iff.mpr htracked) hs'
              refine after_persistOr_tail (fun _ => hdone) fun failure => ?_
              exact alike_restoreReceived hdelivery (.refl _)

end RabiRoute.AgentRequests
