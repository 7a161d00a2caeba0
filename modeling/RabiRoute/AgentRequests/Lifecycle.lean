import RabiRoute.AgentRequests.RecordSteps
import RabiRoute.Shared.Fallible

/-!
# The lifecycle of a request

The status of a request only advances, and its response is settled once.
-/

open Collections Fallible Interleave Transitions

namespace RabiRoute.AgentRequests

open AgentRequestState

variable {functions : Functions} {env : Env} {s s' : AgentRequestState} {id : JsString} {call : Call}

/-- The moves that a status can make. -/
inductive Moves : AgentRequestStatus → AgentRequestStatus → Prop where
  | stay (status : AgentRequestStatus) : Moves status status
  | delivered : Moves .pending_delivery .awaiting_response
  | responded : Moves .awaiting_response .responded
  | cancelled {status : AgentRequestStatus} : status = .pending_delivery ∨ status = .awaiting_response →
      Moves status .cancelled

/-- A response stands with the status `responded`, and a delivery of one only while it is awaited. -/
structure Lifecycle (record : AgentRequestRecord) : Prop where
  response : record.response.isSome = true ↔ record.status = .responded
  pending : record.pendingResponseDeliveryId.isSome = true → record.status = .awaiting_response

/-- What an event may make of one request: a request appears undelivered and only an abort deletes it, while
it is undelivered; a response that stands is not touched. -/
def Advances (call : Call) : Option AgentRequestRecord → Option AgentRequestRecord → Prop
  | none, none => True
  | none, some record => record.status = .pending_delivery
  | some record, none => record.status = .pending_delivery ∧ ∃ preparation, call = .abort preparation
  | some record, some record' => Moves record.status record'.status ∧
      (record.response.isSome = true → record'.response = record.response)

/-! ## Ids of deliveries -/

theorem callerAgentDeliveryId_nonempty {value deliveryId : JsString} (h : callerAgentDeliveryId value = .ok deliveryId) :
    deliveryId ≠ [] := by
  unfold callerAgentDeliveryId at h
  split at h
  · cases h
  case isFalse hvalid =>
    obtain rfl := Except.ok.inj h
    rintro rfl
    simp at hvalid

theorem isUuid_nonempty {text : JsString} (h : isUuid text = true) : text ≠ [] := by
  rintro rfl
  simp [isUuid] at h

theorem prepareInput_deliveryId {input : PrepareAgentCommunicationInput} {prepared : PreparedInput} (huuid : isUuid
    (env.randomUUID 0) = true) (h : prepareInput functions env input = .ok prepared) : prepared.deliveryId ≠ [] := by
  unfold prepareInput at h
  obtain ⟨_, -, h⟩ := bind_ok.mp h
  obtain ⟨_, -, h⟩ := bind_ok.mp h
  obtain ⟨_, -, h⟩ := bind_ok.mp h
  dsimp only at h
  split at h
  · obtain ⟨deliveryId, hdelivery, h⟩ := bind_ok.mp h
    obtain rfl := Except.ok.inj hdelivery
    obtain rfl := Except.ok.inj h
    exact isUuid_nonempty huuid
  · obtain ⟨deliveryId, hdelivery, h⟩ := bind_ok.mp h
    obtain rfl := Except.ok.inj h
    exact callerAgentDeliveryId_nonempty hdelivery

/-! ## One event -/

/-- The lifecycle, and a delivery that is awaited has an id that is not empty. -/
structure Alive (record : AgentRequestRecord) : Prop extends Lifecycle record where
  nonempty : record.pendingResponseDeliveryId ≠ some []

theorem Alive.response_none {record : AgentRequestRecord} (h : Alive record) (hstatus : record.status ≠ .responded) :
    record.response = none :=
  Option.not_isSome_iff_eq_none.mp fun hsome => hstatus (h.response.mp hsome)

theorem Alive.idle {record : AgentRequestRecord} (h : Alive record)
    (hpending : presentText record.pendingResponseDeliveryId = none) : record.pendingResponseDeliveryId = none := by
  cases hdelivery : record.pendingResponseDeliveryId with
  | none => rfl
  | some deliveryId =>
    rw [hdelivery] at hpending
    have hempty : deliveryId = [] := by simpa [presentText, Option.filter] using hpending
    exact absurd (hdelivery.trans (congrArg some hempty)) h.nonempty

theorem Alive.of_idle {record : AgentRequestRecord} (hresponse : record.response.isSome = true ↔ record.status =
    .responded) (hpending : record.pendingResponseDeliveryId = none) : Alive record := by
  refine ⟨⟨hresponse, fun hsome => ?_⟩, fun hempty => ?_⟩
  · rw [hpending] at hsome
    cases hsome
  · rw [hpending] at hempty
    cases hempty

theorem fixedParties_open {record : AgentRequestRecord} (h : fixedParties record = false) :
    record.status = .pending_delivery ∨ record.status = .awaiting_response := by
  simp only [fixedParties, Bool.or_eq_false_iff, Bool.and_eq_false_iff, decide_eq_false_iff_not, ne_eq, not_not] at h
  exact h.1.1.1

theorem checkReply_awaiting {record : AgentRequestRecord} {prepared : PreparedInput} (h : checkReply record prepared =
    .ok ()) : record.status = .awaiting_response ∧ presentText record.pendingResponseDeliveryId = none := by
  unfold checkReply at h
  dsimp only at h
  split at h
  · cases h
  case isFalse hstatus =>
    split at h
    · cases h
    case isFalse hidle => exact ⟨by simpa using hstatus, by simpa using hidle⟩

/-- A request after its parties were reconciled. -/
theorem Alive.rebound {record record' : AgentRequestRecord} (h : Alive record) (hrebound : Rebound functions env record
    record') : Alive record' ∧ Moves record.status record'.status ∧ record'.response = record.response := by
  cases hrebound with
  | kept => exact ⟨h, .stay _, rfl⟩
  | withdrawn hopen =>
    have hstatus := fixedParties_open hopen
    have hnone := h.response_none (by rcases hstatus with h | h <;> simp [h])
    refine ⟨⟨⟨?_, ?_⟩, ?_⟩, .cancelled hstatus, rfl⟩
    · simp [withdrawn, hnone]
    · simp [withdrawn]
    · simp [withdrawn]
  | followed => exact ⟨⟨⟨h.response, h.pending⟩, h.nonempty⟩, .stay _, rfl⟩
  | released => exact ⟨.of_idle h.response rfl, .stay _, rfl⟩

/-- One event keeps a request alive and advances it. -/
theorem Alive.step {record record' : AgentRequestRecord} (huuid : isUuid (env.randomUUID 0) = true) (h : Alive record)
    (hstep : RequestStep functions env call id (some record) (some record')) :
    Alive record' ∧ Moves record.status record'.status ∧
      (record.response.isSome = true → record'.response = record.response) := by
  cases hstep with
  | kept => exact ⟨h, .stay _, fun _ => rfl⟩
  | reserved hprepared hcheck =>
    have hawaiting := (checkReply_awaiting hcheck).1
    refine ⟨⟨⟨h.response, fun _ => hawaiting⟩, ?_⟩, .stay _, fun _ => rfl⟩
    exact fun hempty => prepareInput_deliveryId huuid hprepared (Option.some.inj hempty)
  | answered hawaiting hidle =>
    have hnone := h.response_none (by simp [hawaiting])
    have hpending := h.idle hidle
    refine ⟨⟨⟨?_, ?_⟩, h.nonempty⟩, hawaiting ▸ .responded, ?_⟩
    · simp [answered]
    · simp [answered, hpending]
    · simp [hnone]
  | evidenced => exact ⟨⟨⟨h.response, h.pending⟩, h.nonempty⟩, .stay _, fun _ => rfl⟩
  | replied hpending =>
    have hawaiting := h.pending (by rw [hpending]; rfl)
    have hnone := h.response_none (by simp [hawaiting])
    refine ⟨.of_idle ?_ rfl, hawaiting ▸ .responded, ?_⟩
    · simp [replied]
    · simp [hnone]
  | delivered =>
    unfold AgentRequests.delivered
    split
    case isFalse => exact ⟨h, .stay _, fun _ => rfl⟩
    case isTrue hstatus =>
      have hnone := h.response_none (by simp [hstatus])
      refine ⟨⟨⟨?_, fun _ => rfl⟩, h.nonempty⟩, hstatus ▸ .delivered, fun _ => rfl⟩
      simp [hnone]
  | released => exact ⟨.of_idle h.response rfl, .stay _, fun _ => rfl⟩
  | withdrawn hresponded hcancelled =>
    have hnone := h.response_none hresponded
    refine ⟨.of_idle ?_ rfl, .cancelled ?_, fun _ => rfl⟩
    · simp [withdrawn, hnone]
    · cases hstatus : record.status <;> simp_all
  | rebound hrebound =>
    obtain ⟨halive, hmoves, hresponse⟩ := h.rebound hrebound
    exact ⟨halive, hmoves, fun _ => hresponse⟩

/-! ## Every run -/

/-- The invariant of every run. -/
structure Lively (s : AgentRequestState) : Prop where
  keyed : Keyed s
  alive : ∀ id record, s.requests.get? id = some record → Alive record

theorem Lively.empty : Lively {} := by
  have hnone : ∀ id, ({} : AgentRequestState).requests.get? id = none := fun _ => rfl
  refine ⟨⟨fun id record h => ?_, fun id delivery h => ?_⟩, fun id record h => ?_⟩
  · rw [hnone] at h
    cases h
  · exact nomatch (show none = some delivery from h)
  · rw [hnone] at h
    cases h

theorem opened_alive (prepared : PreparedInput) : Alive (opened env prepared id) := by
  refine .of_idle ?_ rfl
  simp [opened]

theorem Lively.step {e : Event} {answer : Except Failure Reply} (h : Lively s)
    (hstep : (ledger functions).step e s = some (answer, s')) : Lively s' := by
  have hsteps := event_steps h.keyed hstep
  have huuid := (step_outcome h.keyed hstep).1.1.1
  refine ⟨h.keyed.step hsteps.requests hsteps.deliveries, fun id record' hrecord' => ?_⟩
  have hid := hsteps.requests id
  rw [hrecord'] at hid
  cases hrecord : s.requests.get? id with
  | none =>
    rw [hrecord] at hid
    cases hid with
    | opened => exact opened_alive _
  | some record => exact ((h.alive id record hrecord).step huuid (hrecord ▸ hid)).1

theorem lively_of_reach (h : (ledger functions).Reach {} s) : Lively s :=
  h.invariant Lively.empty fun _ _ _ _ hs _ hstep => hs.step hstep

theorem advances_step {e : Event} {answer : Except Failure Reply} (h : Lively s) (hstep : (ledger functions).step e s =
    some (answer, s')) (id : JsString) : Advances e.call (s.requests.get? id) (s'.requests.get? id) := by
  have huuid := (step_outcome h.keyed hstep).1.1.1
  have hid := (event_steps h.keyed hstep).requests id
  cases hrecord : s.requests.get? id with
  | none =>
    rw [hrecord] at hid
    cases hrecord' : s'.requests.get? id with
    | none => trivial
    | some record' =>
      rw [hrecord'] at hid
      cases hid with
      | opened => rfl
  | some record =>
    rw [hrecord] at hid
    cases hrecord' : s'.requests.get? id with
    | none =>
      rw [hrecord'] at hid
      cases hid with
      | deleted hcall hstatus => exact ⟨hstatus, _, hcall⟩
    | some record' => exact ((h.alive id record hrecord).step huuid (hrecord' ▸ hid)).2

/-- No event moves a status that is closed. -/
theorem Moves.closed {status status' : AgentRequestStatus} (h : Moves status status')
    (hclosed : status = .responded ∨ status = .cancelled) : status' = status := by
  cases h with
  | stay => rfl
  | delivered => simp at hclosed
  | responded => simp at hclosed
  | cancelled hopen => rcases hopen with rfl | rfl <;> simp at hclosed

/-- A request that is closed stays closed, with its response, in every state that the run goes on to. -/
theorem closed_stays {record : AgentRequestRecord} (h : (ledger functions).Reach {} s)
    (hrecord : s.requests.get? id = some record) (hclosed : record.status = .responded ∨ record.status = .cancelled)
    (h' : (ledger functions).Reach s s') :
    ∃ record', s'.requests.get? id = some record' ∧ record'.status = record.status ∧
      record'.response = record.response := by
  induction h' with
  | refl => exact ⟨record, hrecord, rfl, rfl⟩
  | @next before after e answer hreach _ hstep ih =>
    obtain ⟨current, hcurrent, hstatus, hresponse⟩ := ih
    have hlively := lively_of_reach (h.trans hreach)
    have hadvances := advances_step hlively hstep id
    rw [hcurrent] at hadvances
    cases hafter : after.requests.get? id with
    | none =>
      rw [hafter] at hadvances
      rw [hstatus.symm.trans hadvances.1] at hclosed
      simp at hclosed
    | some record' =>
      rw [hafter] at hadvances
      have hsame := hadvances.1.closed (hstatus ▸ hclosed)
      refine ⟨record', rfl, hsame.trans hstatus, ?_⟩
      cases hsome : current.response with
      | none =>
        have halive := hlively.alive id current hcurrent
        have halive' := (hlively.step hstep).alive id record' hafter
        have hopen : record'.status ≠ .responded := by
          intro hresponded
          have := halive.response.mpr (hsame ▸ hresponded)
          simp [hsome] at this
        rw [halive'.response_none hopen, ← hresponse, hsome]
      | some response => exact (hadvances.2 (by rw [hsome]; rfl)).trans hresponse

/-- The lifecycle of requests in every run from the empty ledger. -/
theorem lifecycle (functions : Functions) (h : (ledger functions).Reach {} s) :
    (∀ id record, s.requests.get? id = some record → Lifecycle record) ∧
      (∀ e answer s', (ledger functions).step e s = some (answer, s') →
        ∀ id, Advances e.call (s.requests.get? id) (s'.requests.get? id)) ∧
      ∀ s', (ledger functions).Reach s s' → ∀ id record, s.requests.get? id = some record →
        record.status = .responded ∨ record.status = .cancelled →
        ∃ record', s'.requests.get? id = some record' ∧ record'.status = record.status ∧
          record'.response = record.response := by
  have hlively := lively_of_reach h
  refine ⟨fun id record hrecord ↦ (hlively.alive id record hrecord).toLifecycle, ?_, ?_⟩
  · intro e answer s' hstep id
    exact advances_step hlively hstep id
  · intro s' h' id record hrecord hclosed
    exact closed_stays h hrecord hclosed h'

def plainFunctions : Functions where
  sha256 text := text
  optionsDigest _ := []
  scopedDigest _ := []
  isDate _ := true
  isAgentAdapterType _ := true
  sameCodexWorkspace _ _ := true
  normalizeRabiMessageContent text := text

/-- What a call gets whose ids end in the digits. -/
def envWith (first second : UInt16) : Env where
  now _ := js "2024-01-01T00:00:00.000Z"
  isoAfter _ := js "2024-01-01T00:00:00.000Z"
  randomUUID i := js "00000000-0000-4000-8000-0000000000" ++ [if i = 0 then first else second, 48]
  jitter _ := 0
  write := none

def sender : AgentRequestParty := { threadId := js "sender", agentType := js "agent" }

def receiver : AgentRequestParty := { threadId := js "receiver", agentType := js "agent" }

/-- A task that waits for a response. -/
def task : PrepareAgentCommunicationInput where
  responsePolicy := some .required
  responseInstruction := some (js "answer")
  source := sender
  target := receiver

/-- The answer to the task. -/
def reply : PrepareAgentCommunicationInput where
  responsePolicy := some .none
  inReplyToRequestId := some ((envWith 48 49).randomUUID 1)
  result := some (js "done")
  nextAction := some (js "none")
  source := receiver
  target := sender

/-- The preparation of a call of `prepare` that meets its checks. -/
def preparationOf (env : Env) (input : PrepareAgentCommunicationInput) : Option AgentCommunicationPreparation :=
  match prepareInput plainFunctions env input with
  | .ok prepared => some (preparation env prepared)
  | .error _ => none

def taskAndReply : List Event :=
  [⟨.prepare task, envWith 48 49, false⟩] ++
    ((preparationOf (envWith 48 49) task).map fun sent ↦ ⟨.commit sent {}, envWith 50 51, true⟩).toList ++
    [⟨.prepare reply, envWith 50 51, true⟩] ++
    ((preparationOf (envWith 50 51) reply).map fun answer ↦ ⟨.commit answer {}, envWith 52 53, false⟩).toList

/-- A task is delivered, and its reply is. -/
theorem lifecycle_answered : ∃ (s : AgentRequestState) (record : AgentRequestRecord), s.requests.get? ((envWith 48 49).randomUUID 1) = some record ∧
    record.status = .responded ∧ Lifecycle record ∧ ∃ record', s.requests.get? ((envWith 48 49).randomUUID 1) =
      some record' ∧ record'.status = record.status ∧ record'.response = record.response := by
  have hrun : ((ledger plainFunctions).run {} taskAndReply).any (fun s ↦
      (s.requests.get? ((envWith 48 49).randomUUID 1)).any fun record ↦ decide (record.status = .responded)) = true := by
    decide +kernel
  obtain ⟨s, hs, hend⟩ := (Option.any_eq_true _ _).mp hrun
  obtain ⟨record, hrecord, hstatus⟩ := (Option.any_eq_true _ _).mp hend
  have hresponded := of_decide_eq_true hstatus
  have h := lifecycle plainFunctions (System.run_reach hs)
  exact ⟨s, record, hrecord, hresponded, h.1 _ record hrecord, h.2.2 s .refl _ record hrecord (.inl hresponded)⟩

end RabiRoute.AgentRequests
