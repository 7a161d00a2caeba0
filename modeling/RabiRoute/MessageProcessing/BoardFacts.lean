import RabiRoute.MessageProcessing.BoardSteps
import RabiRoute.Shared.Fallible

/-!
# Sent requirements and their facts

A requirement that is `sent` has the assessment of its facts, and the record of those that are
critical.  `submitOutcome` takes the assessment over before it has checked the rest of the outcome;
`OutcomeComplete` says when that does no harm.
-/

open Collections Fallible Transitions

namespace RabiRoute.MessageProcessing

variable {functions : Functions} {clock : Clock} {input : OutcomeInput} {id : JsString} {r r' : Requirement}

def FactsSettled (r : Requirement) : Prop :=
  r.kind = .message_reply → r.factAssessmentRequired = true → r.status = .sent →
    r.projectFactAssessment.isSome = true ∧ (r.criticalFacts ≠ [] → r.criticalFactDisposition.isSome = true)

/-- The invariant: an assessment that found no critical fact also leaves none on the requirement. -/
structure Settled (r : Requirement) : Prop where
  facts : FactsSettled r
  uncritical : ∀ a, r.projectFactAssessment = some a → a.status = .none → r.criticalFacts = []

/-- The assessment that the requirement takes over from an outcome. -/
def takenAssessment (input : OutcomeInput) (r : Requirement) : Option ProjectFactAssessment :=
  match validateSourceEvidenceReview r input, validateProjectFactAssessment r input with
  | .ok _, .ok assessment => assessment
  | _, _ => none

/-- The checks that `submitOutcome` makes after that. -/
def laterChecks (input : OutcomeInput) (r : Requirement) : Bool :=
  (validateKnowledgeMatchDispositions r input).isOk && (validateCriticalFactDisposition r input).isOk

/-- A critical assessment of a requirement that is sent and has no critical fact disposition comes with
an outcome that passes all checks. -/
def OutcomeComplete (input : OutcomeInput) (r : Requirement) : Prop :=
  r.kind = .message_reply → r.factAssessmentRequired = true → r.status = .sent →
    r.criticalFactDisposition = none → ∀ a, takenAssessment input r = some a → a.status = .critical →
      laterChecks input (assess (some a) r) = true

/-! ## What the checks say -/

theorem refuseIf_ok {condition : Bool} {message : JsString} : refuseIf condition message = .ok () ↔ condition = false := by
  unfold refuseIf
  cases condition <;> simp

theorem checkProjectFactAssessment_ok {decision : DecisionType} {a : ProjectFactAssessment}
    (h : checkProjectFactAssessment r decision a = .ok ()) :
    (a.status = .critical → a.facts ≠ []) ∧ (a.status = .none → a.facts = []) := by
  unfold checkProjectFactAssessment at h
  obtain ⟨_, -, h⟩ := bind_ok.mp h
  obtain ⟨_, -, h⟩ := bind_ok.mp h
  dsimp only at h
  have hlast : refuseIf (a.status = .critical && a.facts.isEmpty)
        (js "A critical projectFactAssessment requires at least one Agent-classified fact.") = .ok () ∧
      refuseIf (a.status = .none && !a.facts.isEmpty)
        (js "A none projectFactAssessment cannot include critical facts.") = .ok () := by
    split at h <;>
    · obtain ⟨_, -, h⟩ := bind_ok.mp h
      obtain ⟨_, hcritical, hnone⟩ := bind_ok.mp h
      exact ⟨hcritical, hnone⟩
  obtain ⟨hcritical, hnone⟩ := hlast
  rw [refuseIf_ok] at hcritical hnone
  constructor
  · intro hstatus
    simpa [hstatus] using hcritical
  · intro hstatus
    simpa [hstatus] using hnone

/-- An outcome that brings or keeps an assessment is no handoff, and the assessment is consistent. -/
theorem validateProjectFactAssessment_some {a : ProjectFactAssessment} (h : validateProjectFactAssessment r input = .ok
    (some a)) : input.decision ≠ .handoff ∧ (a.status = .critical → a.facts ≠ []) := by
  unfold validateProjectFactAssessment at h
  split at h
  · cases h
  case isFalse hneeded =>
    simp only [Bool.or_eq_true, decide_eq_true_eq, not_or] at hneeded
    split at h
    · cases h
    · obtain ⟨_, hcheck, heq⟩ := map_ok.mp h
      obtain rfl := Option.some.inj heq
      exact ⟨hneeded.1.2, (checkProjectFactAssessment_ok hcheck).1⟩

theorem validateCriticalFactDisposition_some {d : Option CriticalProjectFactDisposition}
    (h : validateCriticalFactDisposition r input = .ok d) (hdecision : input.decision ≠ .handoff)
    (hfacts : factsToSettle r input ≠ []) : d.isSome = true := by
  unfold validateCriticalFactDisposition at h
  rw [if_neg hdecision, if_neg (by simpa using hfacts)] at h
  split at h
  · cases h
  · split at h
    · split at h
      · cases h
      · exact Except.ok.inj h ▸ rfl
    · split at h
      · cases h
      · exact Except.ok.inj h ▸ rfl

/-! ## One outcome -/

/-- A change that leaves the facts, and the disposition if there is one. -/
theorem Settled.congr (h : Settled r) (hkind : r'.kind = r.kind)
    (hrequired : r'.factAssessmentRequired = r.factAssessmentRequired)
    (hstatus : r'.status = .sent → r.status = .sent)
    (hassessment : r'.projectFactAssessment = r.projectFactAssessment) (hfacts : r'.criticalFacts = r.criticalFacts)
    (hdisposition : r.criticalFactDisposition.isSome = true → r'.criticalFactDisposition.isSome = true) :
    Settled r' where
  facts hk hr hs := by
    rw [hassessment, hfacts]
    obtain ⟨hsome, hcritical⟩ := h.facts (hkind ▸ hk) (hrequired ▸ hr) (hstatus hs)
    exact ⟨hsome, fun hne => hdisposition (hcritical hne)⟩
  uncritical := hassessment ▸ hfacts ▸ h.uncritical

theorem Settled.of_unsent (h : Settled r) (hstatus : r'.status ≠ .sent) (hassessment : r'.projectFactAssessment =
    r.projectFactAssessment) (hfacts : r'.criticalFacts = r.criticalFacts) : Settled r' :=
  ⟨fun _ _ hs => absurd hs hstatus, hassessment ▸ hfacts ▸ h.uncritical⟩

theorem isSome_or_right {α : Type} {a b : Option α} (h : b.isSome = true) : (a.or b).isSome = true := by
  cases a with
  | none => exact h
  | some _ => rfl

theorem decideOutcome_ok (h : decideOutcome clock input r = .ok r') :
    r'.status ≠ .sent ∧ r'.projectFactAssessment = r.projectFactAssessment ∧ r'.criticalFacts = r.criticalFacts := by
  unfold decideOutcome at h
  split at h
  · obtain ⟨_, -, rfl⟩ := map_ok.mp h
    exact ⟨by simp, rfl, rfl⟩
  · split at h
    · cases h
    · obtain rfl := Except.ok.inj h
      exact ⟨by simp, rfl, rfl⟩
  · obtain rfl := Except.ok.inj h
    exact ⟨by simp, rfl, rfl⟩

/-- A requirement whose outcome has passed the checks stays settled: `disposition` is there when there are
facts to settle, unless the outcome is a handoff. -/
theorem settled_applyOutcome {disposition : Option CriticalProjectFactDisposition}
    (huncritical : ∀ a, r.projectFactAssessment = some a → a.status = .none → r.criticalFacts = [])
    (hsent : r.kind = .message_reply → r.factAssessmentRequired = true → r.status = .sent →
      r.projectFactAssessment.isSome = true ∧
        (r.criticalFacts ≠ [] → (disposition.or r.criticalFactDisposition).isSome = true)) :
    Settled (applyOutcome clock input disposition r).1 := by
  unfold applyOutcome
  split
  case isTrue hs => exact ⟨fun hk hr _ => hsent hk hr hs, huncritical⟩
  case isFalse hunsent =>
    have hstill : Settled r := ⟨fun _ _ hs => absurd hs hunsent, huncritical⟩
    split
    · split
      · exact hstill
      case h_2 a ha =>
        split
        · exact hstill
        case isFalse hdisposition =>
          -- the facts are those of the assessment, and a critical one has its disposition
          refine ⟨fun _ _ _ => ⟨congrArg Option.isSome ha, fun hne => ?_⟩, huncritical⟩
          cases hstatus : a.status with
          | none => exact absurd (huncritical a ha hstatus) hne
          | critical =>
            cases disposition with
            | some d => rfl
            | none => exact absurd (by simp [hstatus]) hdisposition
    · split
      · exact hstill
      case h_2 decided hdecided =>
        obtain ⟨hstatus, hassessment, hfacts⟩ := decideOutcome_ok hdecided
        dsimp only
        split
        · exact hstill.of_unsent hstatus hassessment hfacts
        · split
          · exact hstill.of_unsent hstatus hassessment hfacts
          · exact hstill.of_unsent hstatus hassessment hfacts

theorem assess_uncritical {assessment : Option ProjectFactAssessment} (h : Settled r) (a : ProjectFactAssessment)
    (ha : (assess assessment r).projectFactAssessment = some a) (hstatus : a.status = .none) :
    (assess assessment r).criticalFacts = [] := by
  cases assessment with
  | none => exact h.uncritical a ha hstatus
  | some b =>
    obtain rfl := Option.some.inj ha
    simp [assess, hstatus]

/-- What is sent stays settled when its facts are assessed again, if the critical facts have a disposition. -/
theorem assess_facts {assessment : Option ProjectFactAssessment} (h : Settled r)
    (hdisposition : ∀ a, assessment = some a → a.status = .critical → r.kind = .message_reply →
      r.factAssessmentRequired = true → r.status = .sent → r.criticalFactDisposition.isSome = true) :
    Settled (assess assessment r) := by
  refine ⟨fun hk hr hs => ?_, assess_uncritical h⟩
  cases assessment with
  | none => exact h.facts hk hr hs
  | some a =>
    refine ⟨rfl, fun hne => ?_⟩
    cases hstatus : a.status with
    | none => simp [assess, hstatus] at hne
    | critical => exact hdisposition a rfl hstatus hk hr hs

theorem settled_submitOutcome (h : Settled r) (hc : OutcomeComplete input r) :
    Settled (submitOutcome clock input r).1 := by
  unfold submitOutcome
  split
  · exact h
  split
  · exact h
  case h_2 review hreview =>
    have hreviewed : Settled { r with sourceEvidenceReview := review.or r.sourceEvidenceReview } :=
      h.congr rfl rfl (fun hs => hs) rfl rfl (fun hd => hd)
    dsimp only
    split
    · exact hreviewed
    case h_2 assessment hassessment =>
      have htaken : takenAssessment input r = assessment := by
        have hvalidated : validateProjectFactAssessment r input = .ok assessment := hassessment
        simp only [takenAssessment, hreview, hvalidated]
      -- a check that fails later meets no critical assessment that still lacks its disposition
      have hkept : laterChecks input (assess assessment r) = false →
          Settled (assess assessment { r with sourceEvidenceReview := review.or r.sourceEvidenceReview }) := by
        intro hfails
        refine assess_facts hreviewed fun a ha hcritical hk hr hs => ?_
        cases hd : r.criticalFactDisposition with
        | some d => rfl
        | none =>
          rw [ha, hc hk hr hs hd a (htaken.trans ha) hcritical] at hfails
          cases hfails
      split
      case h_1 message hknowledge =>
        refine hkept ?_
        have hfails : validateKnowledgeMatchDispositions (assess assessment r) input = .error message := by
          rw [← hknowledge]
          cases assessment <;> rfl
        simp [laterChecks, hfails, Except.isOk, Except.toBool]
      case h_2 dispositions hknowledge =>
        split
        case h_1 message hcritical =>
          refine (hkept ?_).congr rfl rfl (fun hs => hs) rfl rfl (fun hd => hd)
          have hfails : validateCriticalFactDisposition (assess assessment r) input = .error message := by
            rw [← hcritical]
            cases assessment <;> rfl
          simp [laterChecks, hfails, Except.isOk, Except.toBool]
        case h_2 disposition hcritical =>
          refine settled_applyOutcome (assess_uncritical hreviewed) fun hk hr hs => ?_
          cases assessment with
          | none =>
            obtain ⟨hsome, hfacts⟩ := h.facts hk hr hs
            exact ⟨hsome, fun hne => isSome_or_right (hfacts hne)⟩
          | some a =>
            obtain ⟨hdecision, -⟩ := validateProjectFactAssessment_some hassessment
            refine ⟨rfl, fun hne => ?_⟩
            cases hstatus : a.status with
            | none => simp [assess, hstatus] at hne
            | critical =>
              have hsettle : disposition.isSome = true := by
                refine validateCriticalFactDisposition_some hcritical hdecision ?_
                simpa [factsToSettle, assess, hstatus, Option.filter_some] using hne
              cases disposition with
              | some d => rfl
              | none => cases hsettle

/-! ## The other operations -/

theorem settled_statusAfterDelivery (status : DeliveryStatus) (h : Settled r) (hassessment : r'.projectFactAssessment =
    r.projectFactAssessment) (hfacts : r'.criticalFacts = r.criticalFacts) (hdisposition : r'.criticalFactDisposition =
    r.criticalFactDisposition) (hrequired : r'.factAssessmentRequired = r.factAssessmentRequired) (hstatus : r'.status =
    .sent → statusAfterDelivery status r = .sent) : Settled r' := by
  refine ⟨fun _ hr hs => ?_, hassessment ▸ hfacts ▸ h.uncritical⟩
  rw [hassessment, hfacts, hdisposition]
  rw [hrequired] at hr
  have hsent := hstatus hs
  unfold statusAfterDelivery at hsent
  split at hsent
  · split at hsent
    · cases hsent
    case isFalse hassessed =>
      split at hsent
      · cases hsent
      case isFalse hrecorded =>
        rw [hr, Bool.true_and, Bool.not_eq_true, Option.isNone_eq_false_iff] at hassessed
        refine ⟨hassessed, fun hne => ?_⟩
        cases hd : r.criticalFactDisposition with
        | some d => rfl
        | none => exact absurd (by simp [hd, hne]) hrecorded
  · cases hsent
  · cases hsent
  · cases hsent

/-- The condition on an operation: an outcome is complete for the requirement that it meets. -/
def CompleteFor (operation : Operation) (board : Board) : Prop :=
  match operation with
  | .submitOutcome id input => ∀ r, board.requirements.get? id = some r → OutcomeComplete input r
  | _ => True

theorem settled_touched {operation : Operation} {board : Board} (h : Settled r) (hr : board.requirements.get? id = some
    r) (hc : CompleteFor operation board) : Settled (touched functions clock operation id r) := by
  have hif : ∀ {target : JsString} {r' : Requirement}, (id = target → Settled r') →
      Settled (if id = target then r' else r) := fun {target r'} h' => by
    split
    case isTrue heq => exact h' heq
    case isFalse => exact h
  cases operation with
  | registerMessageGroup | registerPlanChange | setPlanBaseline | reconcilePlan | pruneExpired => exact h
  | recordDispatch target worker =>
    refine hif fun _ => ?_
    unfold recordDispatch
    split
    · exact h
    · exact h.of_unsent (by simp) rfl rfl
  | recordWorkerReference target worker =>
    refine hif fun _ => ?_
    unfold recordWorkerReference
    split
    · exact h
    · exact h.congr rfl rfl (fun hs => hs) rfl rfl (fun hd => hd)
  | replaceWorkerReferences previousThreadId worker =>
    unfold touched
    dsimp only
    split
    · exact h
    · split
      · exact h.congr rfl rfl (fun hs => hs) rfl rfl (fun hd => hd)
      · exact h
  | recordDispatchFailure target error => exact hif fun _ => h.of_unsent (by simp [recordDispatchFailure]) rfl rfl
  | recordHandoffReturned target returnedBy =>
    refine hif fun _ => ?_
    have hreturned : ∀ handoff, Settled (recordHandoffReturned.returned clock r handoff) := fun handoff =>
      h.of_unsent (by simp [recordHandoffReturned.returned]) rfl rfl
    unfold recordHandoffReturned
    split
    · exact h
    · split
      · split
        · exact h
        · exact hreturned _
      · exact hreturned _
  | submitOutcome target input => exact hif fun heq => settled_submitOutcome h (hc r (heq ▸ hr))
  | recordReply target result deliveryId =>
    exact hif fun _ => settled_statusAfterDelivery _ h rfl rfl rfl rfl fun hs => hs
  | recordSend target result deliveryId =>
    refine hif fun _ => settled_statusAfterDelivery result.status h rfl rfl rfl rfl fun hs => ?_
    simp only [recordSend] at hs
    split at hs
    · cases hs
    · exact hs
  | recordKnowledgeCallback target input =>
    refine hif fun _ => ?_
    unfold recordKnowledgeCallback
    split
    · exact h
    · dsimp only
      split
      · exact h
      · split
        · exact h
        · exact h.congr rfl rfl (fun hs => hs) rfl rfl (fun hd => hd)
  | recordKnowledgeReminder target => exact hif fun _ => h.congr rfl rfl (fun hs => hs) rfl rfl (fun hd => hd)

/-! ## Every run -/

def AllSettled (board : Board) : Prop := ∀ id r, board.requirements.get? id = some r → Settled r

theorem AllSettled.prune {board : Board} {now : Time} (h : AllSettled board) :
    AllSettled (pruneExpiredState now board) :=
  fun id r hr => h id r (get?_of_pruneExpiredState hr)

theorem normalizeCriticalFacts_nil : normalizeCriticalFacts [] = [] := rfl

/-- A requirement that is read back is settled if it was so when it was written. -/
theorem settled_loadRequirement (h : Settled r) (hload : loadRequirement functions r = some r') : Settled r' := by
  obtain ⟨n, hn, hr'⟩ := Option.map_eq_some_iff.mp hload
  have hnormal : Settled n := by
    unfold normalizeRequirement at hn
    split at hn
    · cases hn
    · split at hn
      · cases hn
      · obtain rfl := Option.some.inj hn
        refine ⟨fun hk hr hs => ?_, fun a ha hstatus => ?_⟩
        · obtain ⟨hsome, hcritical⟩ := h.facts hk hr hs
          obtain ⟨a, ha⟩ := Option.isSome_iff_exists.mp hsome
          refine ⟨by simp [ha, normalizeProjectFactAssessment, ProjectFactAssessment.toInput], fun hne => ?_⟩
          have hfacts : r.criticalFacts ≠ [] := fun hnil => hne (by simp [hnil, normalizeCriticalFacts_nil])
          obtain ⟨d, hd⟩ := Option.isSome_iff_exists.mp (hcritical hfacts)
          simp [hd, normalizeCriticalFactDisposition, CriticalProjectFactDisposition.toInput]
        · cases hb : r.projectFactAssessment with
          | none =>
            rw [hb] at ha
            cases ha
          | some b =>
            rw [hb] at ha
            have hsame : b.status = .none := by
              obtain rfl := Option.some.inj ha
              exact hstatus
            simp [h.uncritical b hb hsame, normalizeCriticalFacts_nil]
  subst hr'
  split
  · exact hnormal.congr rfl rfl (fun hs => hs) rfl rfl (fun hd => hd)
  · exact hnormal

theorem AllSettled.load {persisted : Board} (h : AllSettled persisted) : AllSettled (loadBoard functions persisted) := by
  intro id r hr
  obtain ⟨item, hitem, hload, -⟩ := get?_of_loadBoard hr
  obtain ⟨id', hid'⟩ := InsertionMap.mem_values.mp hitem
  exact settled_loadRequirement (h id' item hid') hload

theorem AllSettled.body {operation : Operation} {board : Board} (h : AllSettled board) (hfresh : freshUuid operation
    board = true) (hc : CompleteFor operation board) : AllSettled (body functions clock operation board).1 := by
  by_cases hprune : operation = .pruneExpired
  · subst hprune
    exact h.prune
  · have hoperated : Operated functions clock operation board (MessageProcessing.body functions clock operation board) :=
      operated_body hfresh hprune
    intro id r' hr'
    cases hr : board.requirements.get? id with
    | some r =>
      rw [hoperated.kept id r hr] at hr'
      exact Option.some.inj hr' ▸ settled_touched (h id r hr) hr hc
    | none =>
      obtain ⟨-, ⟨hplan, hnone⟩ | ⟨input, source, -, -, rfl, -⟩⟩ := hoperated.new id r' hr hr'
      · exact ⟨fun hk _ _ => (by rw [hplan] at hk; cases hk), fun _ _ _ => hnone⟩
      · exact ⟨fun _ _ hs => (by cases hs), fun a ha => (by cases ha)⟩

/-- The condition on the events of a run: each outcome is complete for the requirement that it meets. -/
def Complete (e : Event) (s : Store) : Prop :=
  match e with
  | .call operation _ _ => CompleteFor operation s.board
  | .restart _ _ => True

/-- The requirements on the board and in the state file are settled. -/
structure StoreSettled (s : Store) : Prop where
  board : AllSettled s.board
  persisted : ∀ p, s.persisted = some p → AllSettled p

theorem StoreSettled.finish {s : Store} {write : Write} {result : Body} {answer : Except JsString Result}
    {s' : Store} (h : StoreSettled s) (hresult : AllSettled result.1)
    (hs : s.finish clock write result = (answer, s')) : StoreSettled s' := by
  unfold Store.finish at hs
  dsimp only at hs
  split at hs
  · obtain ⟨-, rfl⟩ := Prod.mk.inj hs
    exact ⟨hresult, h.persisted⟩
  · obtain ⟨-, rfl⟩ := Prod.mk.inj hs
    exact ⟨hresult, h.persisted⟩
  · split at hs
    · obtain ⟨-, rfl⟩ := Prod.mk.inj hs
      exact ⟨hresult.prune, h.persisted⟩
    · obtain ⟨-, rfl⟩ := Prod.mk.inj hs
      exact ⟨hresult.prune, fun p hp => Option.some.inj hp ▸ hresult.prune⟩

theorem StoreSettled.step {e : Event} {s s' : Store} {answer : Except JsString Result} (h : StoreSettled s)
    (hc : Complete e s) (hs : step functions e s = some (answer, s')) : StoreSettled s' := by
  cases e with
  | call operation clock write =>
    simp only [MessageProcessing.step] at hs
    split at hs
    · cases hs
    split at hs
    case isTrue hfresh =>
      generalize hf : s.finish clock write (MessageProcessing.body functions clock operation s.board) = result at hs
      obtain ⟨-, rfl⟩ := Prod.mk.inj (Option.some.inj hs)
      have hfinish := h.finish (h.board.body hfresh hc) hf
      exact ⟨hfinish.board, hfinish.persisted⟩
    case isFalse => cases hs
  | restart clock write =>
    have hload : AllSettled (construct functions clock s.persisted).1 := by
      unfold construct
      dsimp only
      refine AllSettled.prune ?_
      cases hp : s.persisted with
      | none => exact fun id r hr => (by cases hr)
      | some p => exact (h.persisted p hp).load
    simp only [MessageProcessing.step] at hs
    split at hs
    · cases hs
    split at hs
    case h_1 answer store hf =>
      obtain ⟨-, rfl⟩ := Prod.mk.inj (Option.some.inj hs)
      exact h.finish hload hf
    case h_2 => cases hs

/-- A sent message has its facts assessed, and the critical ones recorded, in every state of every run in
which a critical assessment of a sent message without a disposition comes with a complete outcome. -/
theorem sent_facts_settled (functions : Functions) {s : Store}
    (h : (system functions).ReachUnder Complete {} s) :
    ∀ r ∈ s.board.requirements.values, FactsSettled r := by
  have hsettled : StoreSettled s := by
    refine h.invariant ⟨fun id r hr ↦ (by cases hr), fun p hp ↦ (by cases hp)⟩ fun e s a s' hs hc hstep ↦ ?_
    exact hs.step hc hstep
  intro r hr
  obtain ⟨id, hid⟩ := InsertionMap.mem_values.mp hr
  exact (hsettled.board id r hid).facts

section

def plainFunctions : Functions := ⟨fun _ ↦ List.replicate 64 97, fun _ ↦ js "time", fun text ↦ text⟩

/-- The clock stands still during the operation. -/
def clockAt (now : Time) : Clock := ⟨fun _ ↦ now, fun _ _ _ ↦ Nat.le_refl now⟩

def chatSource : SourceInput :=
  { routeId := js "route", endpoint := js "qq", conversationKey := js "group", sender := js "sender",
    messageIds := [js "m"] }

def chatRequirement : Event :=
  .call (.registerMessageGroup { requirementId := js "q", messageGroupId := js "g", source := chatSource })
    (clockAt 1) none

def assessment (status : AssessmentStatus) (facts : List CriticalProjectFactInput) : ProjectFactAssessmentInput :=
  ⟨some status, [js "m"], true, js "read", js "now", none, facts⟩

def launchFact : CriticalProjectFactInput := ⟨some .schedule, js "launch"⟩

def memoryRecord : CriticalFactDispositionInput :=
  ⟨some .recorded, some ⟨some .memory, none, js "memory", none⟩, none, none, js "stored", js "now"⟩

def replies (now : Time) (projectFactAssessment : ProjectFactAssessmentInput)
    (criticalFactDisposition : Option CriticalFactDispositionInput) : Event :=
  .call (.submitOutcome (js "q") { decision := .reply, projectFactAssessment, criticalFactDisposition })
    (clockAt now) none

def sends : Event := .call (.recordReply (js "q") { status := .sent } none) (clockAt 3) none

/-- No outcome meets a requirement that is sent. -/
def meetsUnsent : Event → Store → Bool
  | .call (.submitOutcome id _) _ _, s => (s.board.requirements.get? id).all fun r ↦ r.status ≠ .sent
  | _, _ => true

theorem meetsUnsent_complete {e : Event} {s : Store} (h : meetsUnsent e s = true) : Complete e s := by
  cases e with
  | restart clock write => trivial
  | call operation clock write =>
    cases operation with
    | submitOutcome id input =>
      intro r hr _ _ hs
      simp [meetsUnsent, hr, hs] at h
    | _ => trivial

/-- A critical fact is assessed and recorded before the message is sent. -/
theorem sent_facts_settled_recorded : ∃ s, (system plainFunctions).ReachUnder Complete {} s ∧
    ∃ r ∈ s.board.requirements.values, r.status = .sent ∧ r.criticalFacts ≠ [] ∧ FactsSettled r := by
  have hrun : ((system plainFunctions).runUnder (fun e s ↦ meetsUnsent e s = true) {}
      [chatRequirement, replies 2 (assessment .critical [launchFact]) (some memoryRecord), sends]).any
      (fun s ↦ s.board.requirements.values.any fun r ↦
        decide (r.status = .sent) && decide (r.criticalFacts ≠ [])) = true := by
    decide +kernel
  obtain ⟨s, hs, hend⟩ := (Option.any_eq_true _ _).mp hrun
  obtain ⟨r, hr, hsent⟩ := List.any_eq_true.mp hend
  simp only [Bool.and_eq_true, decide_eq_true_eq] at hsent
  have hreach := (System.runUnder_reach hs).mono fun _ _ ↦ meetsUnsent_complete
  exact ⟨s, hreach, r, hr, hsent.1, hsent.2, sent_facts_settled plainFunctions hreach r hr⟩

/-- A message is sent with an assessment that finds no critical fact.  A later outcome brings one without
its record: it throws, but the requirement keeps the fact. -/
theorem sent_facts_unsettled : ∃ s, (system plainFunctions).Reach {} s ∧
    ∃ r ∈ s.board.requirements.values, ¬ FactsSettled r := by
  have hrun : ((system plainFunctions).run {}
      [chatRequirement, replies 2 (assessment .none []) none, sends,
        replies 4 (assessment .critical [launchFact]) none]).any
      (fun s ↦ s.board.requirements.values.any fun r ↦
        decide (r.kind = .message_reply) && r.factAssessmentRequired && decide (r.status = .sent) &&
          decide (r.criticalFacts ≠ []) && r.criticalFactDisposition.isNone) = true := by
    decide +kernel
  obtain ⟨s, hs, hend⟩ := (Option.any_eq_true _ _).mp hrun
  obtain ⟨r, hr, hbad⟩ := List.any_eq_true.mp hend
  simp only [Bool.and_eq_true, decide_eq_true_eq] at hbad
  obtain ⟨⟨⟨⟨hkind, hrequired⟩, hsent⟩, hfacts⟩, hnone⟩ := hbad
  refine ⟨s, System.run_reach hs, r, hr, fun hsettled ↦ ?_⟩
  have hsome := (hsettled hkind hrequired hsent).2 hfacts
  rw [Option.isNone_iff_eq_none.mp hnone] at hsome
  cases hsome

end

end RabiRoute.MessageProcessing
