import RabiRoute.MessageProcessing.BoardFacts

/-!
# Outcomes that are refused

`submitOutcome` changes the requirement after each of its checks.  An outcome that a later check
refuses, or whose write fails, leaves what it has changed until then; `RefusedUnchanged` says when
that is nothing.
-/

open Collections Fallible Transitions

namespace RabiRoute.MessageProcessing

variable {functions : Functions} {clock : Clock} {input : OutcomeInput} {id : JsString} {r r' : Requirement}
  {board : Board} {d : Option CriticalProjectFactDisposition}

/-! ## What is checked, and what the requirement holds already -/

/-- Nothing is checked: the requirement is sent, and the outcome says nothing of its facts. -/
def answersAtOnce (input : OutcomeInput) (r : Requirement) : Bool :=
  r.status = .sent && input.projectFactAssessment.isNone && input.criticalFactDisposition.isNone

/-- The outcome passes the check of the source evidence. -/
def Reviewed (input : OutcomeInput) (r : Requirement) : Prop :=
  answersAtOnce input r = false ∧ (validateSourceEvidenceReview r input).isOk = true

/-- The outcome also passes the check of the project facts. -/
def Assessed (input : OutcomeInput) (r : Requirement) : Prop :=
  Reviewed input r ∧ (validateProjectFactAssessment r input).isOk = true

/-- The outcome also passes the check of the recalled knowledge. -/
def Disposed (input : OutcomeInput) (r : Requirement) : Prop :=
  Assessed input r ∧ (validateKnowledgeMatchDispositions r input).isOk = true

/-- The outcome also passes the check of the critical facts, which answers `d`. -/
def FactsAccepted (input : OutcomeInput) (r : Requirement) (d : Option CriticalProjectFactDisposition) : Prop :=
  Disposed input r ∧ validateCriticalFactDisposition (assess (takenAssessment input r) r) input = .ok d

/-- The outcome closes the requirement, whatever its decision is. -/
def closes (r : Requirement) : Bool :=
  r.status = .sent || r.status = .fact_assessment_pending || r.status = .fact_record_pending

/-- The last check: of the facts of a message that waits for them, or of the decision. -/
def concludes (clock : Clock) (input : OutcomeInput) (d : Option CriticalProjectFactDisposition) (r : Requirement) :
    Bool :=
  if r.status = .sent then true
  else if closes r then
    (assess (takenAssessment input r) r).projectFactAssessment.any fun a ↦ !(a.status = .critical && d.isNone)
  else (decideOutcome clock input r).isOk

/-- The origin that the outcome links, if it names a plan. -/
def linked (clock : Clock) (input : OutcomeInput) (r : Requirement) : Except JsString (Option PlanOrigin) :=
  if closes r || (input.planId.getD []).isEmpty then .ok none else (linkPlan clock input r).map some

def ReviewHeld (input : OutcomeInput) (r : Requirement) : Prop :=
  ∀ review, validateSourceEvidenceReview r input = .ok (some review) → r.sourceEvidenceReview = some review

def AssessmentHeld (input : OutcomeInput) (r : Requirement) : Prop :=
  ∀ a, validateProjectFactAssessment r input = .ok (some a) →
    r.projectFactAssessment = some a ∧ r.criticalFacts = if a.status = .critical then a.facts else []

def DispositionsHeld (input : OutcomeInput) (r : Requirement) : Prop :=
  ∀ dispositions, validateKnowledgeMatchDispositions r input = .ok (some dispositions) →
    r.knowledgeMatchDispositions = dispositions

/-- What the first three checks accept is what the requirement holds. -/
def TakenHeld (input : OutcomeInput) (r : Requirement) : Prop :=
  ReviewHeld input r ∧ AssessmentHeld input r ∧ DispositionsHeld input r

def endStatus (input : OutcomeInput) (r : Requirement) : RequirementStatus :=
  if closes r then .sent
  else
    match input.decision with
    | .no_reply => .not_required
    | .handoff => .handed_off
    | .reply => .awaiting_send

def endDecision (clock : Clock) (input : OutcomeInput) : Decision where
  type := input.decision
  reasonCode := if input.decision = .no_reply then some (input.reasonCode.getD .agent_judgement) else none
  reason := cleanText 2000 input.reason
  decidedAt := clock.reading 0
  decidedByThreadId := cleanText 100 input.decidedByThreadId

def endHandoff (clock : Clock) (input : OutcomeInput) (targetAgentType : JsString) : Handoff where
  targetAgentType
  targetThreadId := cleanText 100 input.targetThreadId
  targetThreadName := cleanText 300 input.targetThreadName
  acceptedAt := clock.reading 0

/-- The requirement holds this decision already, taken at this time. -/
structure EndHeld (clock : Clock) (input : OutcomeInput) (d : Option CriticalProjectFactDisposition)
    (r : Requirement) : Prop where
  status : r.status = endStatus input r
  decision : closes r = false → r.decision = some (endDecision clock input)
  handoff : closes r = false → input.decision = .handoff → ∀ targetAgentType,
    cleanText 80 input.targetAgentType = some targetAgentType → r.handoff = some (endHandoff clock input targetAgentType)
  disposition : ∀ disposition, d = some disposition → r.criticalFactDisposition = some disposition
  updatedAt : r.updatedAt = clock.reading 0
  lastError : r.lastError = none

/-- Pruning removes no origin, and the one that is linked is there or is gone again. -/
def OriginsHeld (now : Time) (origin : Option PlanOrigin) (board : Board) : Prop :=
  (∀ item ∈ board.planOrigins.values, originExpired now item = false) ∧
    ∀ item, origin = some item → board.planOrigins.get? item.key = some item ∨
      board.planOrigins.get? item.key = none ∧ originExpired now item = true

/-- When a check refuses the outcome, or the write fails, nothing that was accepted before is new. -/
structure RefusedUnchanged (clock : Clock) (input : OutcomeInput) (write : Write) (board : Board) (r : Requirement) :
    Prop where
  facts : Reviewed input r → (validateProjectFactAssessment r input).isOk = false → ReviewHeld input r
  knowledge : Assessed input r → (validateKnowledgeMatchDispositions r input).isOk = false →
    ReviewHeld input r ∧ AssessmentHeld input r
  criticalFacts : Disposed input r →
    (validateCriticalFactDisposition (assess (takenAssessment input r) r) input).isOk = false → TakenHeld input r
  conclusion : ∀ d, FactsAccepted input r d → concludes clock input d r = false → TakenHeld input r
  plan : ∀ d, FactsAccepted input r d → concludes clock input d r = true → (linked clock input r).isOk = false →
    TakenHeld input r ∧ EndHeld clock input d r
  write : ∀ d origin, FactsAccepted input r d → concludes clock input d r = true →
    linked clock input r = .ok origin → write ≠ none →
    TakenHeld input r ∧ EndHeld clock input d r ∧ expired (clock.reading 5) r = false ∧
      OriginsHeld (clock.reading 5) origin board

/-! ## The changes -/

section Taken

variable (review : Option MessageSourceEvidenceReview) (a : Option ProjectFactAssessment)
  (dispositions : Option (List KnowledgeMatchDisposition)) (r : Requirement)

def takeReview : Requirement := { r with sourceEvidenceReview := review.or r.sourceEvidenceReview }

/-- The requirement after the first three checks. -/
def take : Requirement :=
  let r := assess a (takeReview review r)
  { r with knowledgeMatchDispositions := dispositions.getD r.knowledgeMatchDispositions }

theorem or_eq_right {α : Type} {x y : Option α} : x.or y = y ↔ ∀ v, x = some v → y = some v := by
  cases x with
  | none => exact iff_of_true rfl fun v h => (by cases h)
  | some v => exact ⟨fun h _ heq => heq ▸ h.symm, fun h => (h v rfl).symm⟩

theorem getD_eq_right {α : Type} {x : Option α} {y : α} : x.getD y = y ↔ ∀ v, x = some v → y = v := by
  cases x with
  | none => exact iff_of_true rfl fun v h => (by cases h)
  | some v => exact ⟨fun h _ heq => Option.some.inj heq ▸ h.symm, fun h => (h v rfl).symm⟩

theorem takeReview_eq : takeReview review r = r ↔ ∀ v, review = some v → r.sourceEvidenceReview = some v := by
  rw [← or_eq_right]
  constructor
  · intro h
    exact congrArg Requirement.sourceEvidenceReview h
  · intro h
    unfold takeReview
    rw [h]

theorem assess_eq : assess a r = r ↔ ∀ v, a = some v →
    r.projectFactAssessment = some v ∧ r.criticalFacts = if v.status = .critical then v.facts else [] := by
  cases a with
  | none => exact iff_of_true rfl fun v h => (by cases h)
  | some v =>
    constructor
    · intro h w hw
      obtain rfl := Option.some.inj hw
      exact ⟨(congrArg Requirement.projectFactAssessment h).symm, (congrArg Requirement.criticalFacts h).symm⟩
    · intro h
      obtain ⟨hassessment, hfacts⟩ := h v rfl
      unfold assess
      dsimp only
      rw [← hassessment, ← hfacts]

theorem assess_takeReview_eq : assess a (takeReview review r) = r ↔ takeReview review r = r ∧ assess a r = r := by
  constructor
  · intro h
    have hreview : takeReview review r = r := by
      rw [takeReview_eq, ← or_eq_right]
      have hfield := congrArg Requirement.sourceEvidenceReview h
      cases a <;> exact hfield
    rw [hreview] at h
    exact ⟨hreview, h⟩
  · intro ⟨hreview, h⟩
    rw [hreview, h]

theorem take_eq : take review a dispositions r = r ↔ takeReview review r = r ∧ assess a r = r ∧
    ∀ v, dispositions = some v → r.knowledgeMatchDispositions = v := by
  have hassessed : (assess a (takeReview review r)).knowledgeMatchDispositions = r.knowledgeMatchDispositions := by
    cases a <;> rfl
  rw [← getD_eq_right, ← and_assoc, ← assess_takeReview_eq]
  constructor
  · intro h
    have hdispositions : dispositions.getD r.knowledgeMatchDispositions = r.knowledgeMatchDispositions := by
      have hfield := congrArg Requirement.knowledgeMatchDispositions h
      dsimp only [take] at hfield
      rw [hassessed] at hfield
      exact hfield
    refine ⟨?_, hdispositions⟩
    unfold take at h
    dsimp only at h
    rw [hassessed, hdispositions, ← hassessed] at h
    exact h
  · intro ⟨h, hdispositions⟩
    unfold take
    dsimp only
    rw [hassessed, hdispositions, h]

end Taken

section Checks

variable {review : Option MessageSourceEvidenceReview} {a : Option ProjectFactAssessment}
  {dispositions : Option (List KnowledgeMatchDisposition)}

theorem reviewHeld_iff (h : validateSourceEvidenceReview r input = .ok review) :
    ReviewHeld input r ↔ takeReview review r = r := by
  rw [takeReview_eq]
  unfold ReviewHeld
  rw [h]
  simp only [Except.ok.injEq]

theorem assessmentHeld_iff (h : validateProjectFactAssessment r input = .ok a) :
    AssessmentHeld input r ↔ assess a r = r := by
  rw [assess_eq]
  unfold AssessmentHeld
  rw [h]
  simp only [Except.ok.injEq]

theorem takenHeld_iff (hreview : validateSourceEvidenceReview r input = .ok review) (hassessment :
    validateProjectFactAssessment r input = .ok a) (hdispositions : validateKnowledgeMatchDispositions r input = .ok
    dispositions) : TakenHeld input r ↔ take review a dispositions r = r := by
  unfold TakenHeld DispositionsHeld
  rw [reviewHeld_iff hreview, assessmentHeld_iff hassessment, take_eq, hdispositions]
  simp only [Except.ok.injEq]

theorem takenAssessment_eq (hreview : validateSourceEvidenceReview r input = .ok review)
    (hassessment : validateProjectFactAssessment r input = .ok a) : takenAssessment input r = a := by
  unfold takenAssessment
  rw [hreview, hassessment]

/-! No check reads what the checks before it have left, except that the critical facts are those of the
assessment. -/

variable (input r review a) in
theorem validateKnowledgeMatchDispositions_assess :
    validateKnowledgeMatchDispositions (assess a (takeReview review r)) input =
      validateKnowledgeMatchDispositions r input := by
  cases a <;> rfl

variable (input r review a dispositions) in
theorem validateCriticalFactDisposition_take :
    validateCriticalFactDisposition (take review a dispositions r) input =
      validateCriticalFactDisposition (assess a r) input := by
  cases a <;> rfl

theorem linkPlan_congr {t : Requirement} (hid : t.id = r.id) (hsource : t.source = r.source)
    (hworker : t.worker = r.worker) : linkPlan clock input t = linkPlan clock input r := by
  unfold linkPlan
  rw [hid, hsource, hworker]

end Checks

/-! ## The end of an outcome -/

section End

variable {review : Option MessageSourceEvidenceReview} {a : Option ProjectFactAssessment}
  {dispositions : Option (List KnowledgeMatchDisposition)}

/-- A requirement with what the checks take over, and with an end. -/
def ended (t : Requirement) (status : RequirementStatus) (decision : Option Decision) (handoff : Option Handoff)
    (disposition : Option CriticalProjectFactDisposition) (updatedAt : Time) : Requirement :=
  { t with status, decision, handoff, criticalFactDisposition := disposition, updatedAt, lastError := none }

theorem take_outside (review : Option MessageSourceEvidenceReview) (a : Option ProjectFactAssessment)
    (dispositions : Option (List KnowledgeMatchDisposition)) (r : Requirement) : ∃ review' assessment facts dispositions', take review a dispositions r = { r with
    sourceEvidenceReview := review'
    projectFactAssessment := assessment
    criticalFacts := facts
    knowledgeMatchDispositions := dispositions' } := by
  cases a with
  | none => exact ⟨_, r.projectFactAssessment, r.criticalFacts, _, rfl⟩
  | some v => exact ⟨_, _, _, _, rfl⟩

/-- The end touches nothing that the checks take over. -/
theorem ended_take_eq {status : RequirementStatus} {decision : Option Decision} {handoff : Option Handoff}
    {disposition : Option CriticalProjectFactDisposition} {updatedAt : Time} :
    ended (take review a dispositions r) status decision handoff disposition updatedAt = r ↔
      take review a dispositions r = r ∧ r.status = status ∧ r.decision = decision ∧ r.handoff = handoff ∧
        r.criticalFactDisposition = disposition ∧ r.updatedAt = updatedAt ∧ r.lastError = none := by
  obtain ⟨review', assessment, facts, dispositions', htake⟩ := take_outside review a dispositions r
  rw [htake]
  unfold ended
  constructor
  · intro h
    have hreview : review' = r.sourceEvidenceReview := congrArg Requirement.sourceEvidenceReview h
    have hassessment : assessment = r.projectFactAssessment := congrArg Requirement.projectFactAssessment h
    have hfacts : facts = r.criticalFacts := congrArg Requirement.criticalFacts h
    have hdispositions : dispositions' = r.knowledgeMatchDispositions :=
      congrArg Requirement.knowledgeMatchDispositions h
    refine ⟨?_, (congrArg Requirement.status h).symm, (congrArg Requirement.decision h).symm,
      (congrArg Requirement.handoff h).symm, (congrArg Requirement.criticalFactDisposition h).symm,
      (congrArg Requirement.updatedAt h).symm, (congrArg Requirement.lastError h).symm⟩
    rw [hreview, hassessment, hfacts, hdispositions]
  · intro ⟨h, hstatus, hdecision, hhandoff, hdisposition, hupdatedAt, hlastError⟩
    rw [h, ← hstatus, ← hdecision, ← hhandoff, ← hdisposition, ← hupdatedAt, ← hlastError]

theorem endHeld_of_closes (hcloses : closes r = true) : EndHeld clock input d r ↔ r.status = .sent ∧
    r.criticalFactDisposition = d.or r.criticalFactDisposition ∧ r.updatedAt = clock.reading 0 ∧
      r.lastError = none := by
  have hstatus : endStatus input r = .sent := if_pos hcloses
  constructor
  · intro h
    exact ⟨h.status.trans hstatus, (or_eq_right.mpr h.disposition).symm, h.updatedAt, h.lastError⟩
  · intro ⟨hsent, hdisposition, hupdatedAt, hlastError⟩
    refine ⟨hsent.trans hstatus.symm, fun h => ?_, fun h => ?_, or_eq_right.mp hdisposition.symm, hupdatedAt, hlastError⟩
    · rw [hcloses] at h
      cases h
    · rw [hcloses] at h
      cases h

/-- A requirement that is closed. -/
theorem closeSent_take_eq (hcloses : closes r = true) :
    closeSent clock d (take review a dispositions r) = r ↔
      take review a dispositions r = r ∧ EndHeld clock input d r := by
  have hclosed : closeSent clock d (take review a dispositions r) = ended (take review a dispositions r) .sent
      r.decision r.handoff (d.or r.criticalFactDisposition) (clock.reading 0) := by
    cases a <;> rfl
  rw [hclosed, ended_take_eq, endHeld_of_closes hcloses]
  simp only [true_and]

/-- What `submitOutcome` makes of the decided requirement before it links the plan. -/
def decided (clock : Clock) (d : Option CriticalProjectFactDisposition) (t : Requirement) : Requirement :=
  { t with
    lastError := none
    criticalFactDisposition := d.or t.criticalFactDisposition
    updatedAt := clock.reading 0 }

/-- A requirement that is decided; the handoff stays unless the decision is one. -/
theorem ended_decision_eq (hcloses : closes r = false) {handoff : Option Handoff}
    (hhandoff : input.decision ≠ .handoff ∧ handoff = r.handoff ∨ ∃ targetAgentType, input.decision = .handoff ∧
      cleanText 80 input.targetAgentType = some targetAgentType ∧ handoff = some (endHandoff clock input targetAgentType)) :
    ended (take review a dispositions r) (endStatus input r) (some (endDecision clock input)) handoff
        (d.or r.criticalFactDisposition) (clock.reading 0) = r ↔
      take review a dispositions r = r ∧ EndHeld clock input d r := by
  rw [ended_take_eq]
  constructor
  · intro ⟨htake, hstatus, hdecision, hheld, hdisposition, hupdatedAt, hlastError⟩
    refine ⟨htake, hstatus, fun _ => hdecision, fun _ hto targetAgentType htarget => ?_,
      or_eq_right.mp hdisposition.symm, hupdatedAt, hlastError⟩
    rcases hhandoff with ⟨hno, -⟩ | ⟨t, -, ht, rfl⟩
    · exact absurd hto hno
    · rw [ht] at htarget
      rw [hheld, Option.some.inj htarget]
  · intro ⟨htake, h⟩
    refine ⟨htake, h.status, h.decision hcloses, ?_, (or_eq_right.mpr h.disposition).symm, h.updatedAt, h.lastError⟩
    rcases hhandoff with ⟨-, rfl⟩ | ⟨t, hto, ht, rfl⟩
    · rfl
    · exact h.handoff hcloses hto t ht

variable (d review a dispositions) in
/-- The decision says the same of a requirement before and after the checks. -/
theorem decideOutcome_take (hcloses : closes r = false) :
    (∀ m, decideOutcome clock input r = .error m →
      decideOutcome clock input (take review a dispositions r) = .error m) ∧
    ∀ r', decideOutcome clock input r = .ok r' → ∃ t,
      decideOutcome clock input (take review a dispositions r) = .ok t ∧
      t.id = r.id ∧ t.source = r.source ∧ t.worker = r.worker ∧
      (decided clock d t = r ↔ take review a dispositions r = r ∧ EndHeld clock input d r) := by
  have hsilence : ∀ reasonCode, checkSilence reasonCode input (take review a dispositions r) =
      checkSilence reasonCode input r := by
    intro reasonCode
    cases a <;> rfl
  have hcore : (take review a dispositions r).id = r.id ∧ (take review a dispositions r).source = r.source ∧
      (take review a dispositions r).worker = r.worker := by
    cases a <;> exact ⟨rfl, rfl, rfl⟩
  have hend : ∀ (t : Requirement) (handoff : Option Handoff),
      decided clock d t = ended (take review a dispositions r) (endStatus input r) (some (endDecision clock input))
        handoff (d.or r.criticalFactDisposition) (clock.reading 0) →
      (input.decision ≠ .handoff ∧ handoff = r.handoff ∨ ∃ targetAgentType, input.decision = .handoff ∧
        cleanText 80 input.targetAgentType = some targetAgentType ∧
          handoff = some (endHandoff clock input targetAgentType)) →
      (decided clock d t = r ↔ take review a dispositions r = r ∧ EndHeld clock input d r) := by
    intro t handoff heq hhandoff
    rw [heq]
    exact ended_decision_eq hcloses hhandoff
  unfold decideOutcome
  dsimp only
  cases hdecision : input.decision with
  | no_reply =>
    dsimp only
    rw [hsilence]
    cases checkSilence (input.reasonCode.getD .agent_judgement) input r with
    | error m => exact ⟨fun _ h => h, fun _ h => (by cases h)⟩
    | ok u =>
      refine ⟨fun _ h => (by cases h), fun _ _ => ⟨_, rfl, hcore.1, hcore.2.1, hcore.2.2, ?_⟩⟩
      refine hend _ r.handoff ?_ (.inl ⟨by rw [hdecision]; decide, rfl⟩)
      unfold endStatus endDecision
      rw [hcloses, hdecision]
      cases a <;> rfl
  | handoff =>
    dsimp only
    cases htarget : cleanText 80 input.targetAgentType with
    | none => exact ⟨fun _ h => h, fun _ h => (by cases h)⟩
    | some targetAgentType =>
      refine ⟨fun _ h => (by cases h), fun _ _ => ⟨_, rfl, hcore.1, hcore.2.1, hcore.2.2, ?_⟩⟩
      refine hend _ (some (endHandoff clock input targetAgentType)) ?_ (.inr ⟨targetAgentType, hdecision, htarget, rfl⟩)
      unfold endStatus endDecision
      rw [hcloses, hdecision]
      cases a <;> rfl
  | reply =>
    refine ⟨fun _ h => (by cases h), fun _ _ => ⟨_, rfl, hcore.1, hcore.2.1, hcore.2.2, ?_⟩⟩
    refine hend _ r.handoff ?_ (.inl ⟨by rw [hdecision]; decide, rfl⟩)
    unfold endStatus endDecision
    rw [hcloses, hdecision]
    cases a <;> rfl

theorem linked_error {m : JsString} (h : linked clock input r = .error m) :
    (input.planId.getD []).isEmpty = false ∧ linkPlan clock input r = .error m := by
  unfold linked at h
  split at h
  · cases h
  case isFalse hplan =>
    rw [Bool.not_eq_true, Bool.or_eq_false_iff] at hplan
    refine ⟨hplan.2, ?_⟩
    cases hlink : linkPlan clock input r with
    | error m' =>
      rw [hlink] at h
      exact congrArg _ (Except.error.inj h)
    | ok origin =>
      rw [hlink] at h
      cases h

theorem linked_ok (hcloses : closes r = false) {origin : Option PlanOrigin} (h : linked clock input r = .ok origin) :
    (input.planId.getD []).isEmpty = true ∧ origin = none ∨
      (input.planId.getD []).isEmpty = false ∧ ∃ o, origin = some o ∧ linkPlan clock input r = .ok o := by
  unfold linked at h
  rw [hcloses, Bool.false_or] at h
  split at h
  case isTrue hplan => exact .inl ⟨hplan, (Except.ok.inj h).symm⟩
  case isFalse hplan =>
    obtain ⟨o, ho, heq⟩ := map_ok.mp h
    exact .inr ⟨Bool.eq_false_iff.mpr hplan, o, heq.symm, ho⟩

theorem status_take : (take review a dispositions r).status = r.status := by
  cases a <;> rfl

variable (review dispositions) in
theorem projectFactAssessment_take (htaken : takenAssessment input r = a) :
    (take review a dispositions r).projectFactAssessment =
      (assess (takenAssessment input r) r).projectFactAssessment := by
  rw [htaken]
  cases a <;> rfl

variable (review dispositions) in
/-- The last check refuses, and nothing more is changed. -/
theorem applyOutcome_refused (htaken : takenAssessment input r = a) (h : concludes clock input d r = false) :
    ∃ m, applyOutcome clock input d (take review a dispositions r) = (take review a dispositions r, .throws m) := by
  have hassessed := projectFactAssessment_take review dispositions htaken
  unfold concludes at h
  unfold applyOutcome
  rw [status_take]
  by_cases hsent : r.status = .sent
  · rw [if_pos hsent] at h
    cases h
  rw [if_neg hsent] at h ⊢
  by_cases hcloses : closes r = true
  · rw [if_pos hcloses, ← hassessed] at h
    have hpending : (r.status = .fact_assessment_pending || r.status = .fact_record_pending) = true := by
      simpa [closes, hsent] using hcloses
    rw [if_pos hpending]
    cases hfacts : (take review a dispositions r).projectFactAssessment with
    | none => exact ⟨_, rfl⟩
    | some v =>
      have hcritical : (decide (v.status = .critical) && d.isNone) = true := by
        simpa [hfacts] using h
      dsimp only
      rw [if_pos hcritical]
      exact ⟨_, rfl⟩
  · rw [if_neg hcloses] at h
    have hpending : ¬ (r.status = .fact_assessment_pending || r.status = .fact_record_pending) = true := by
      simpa [closes, hsent] using hcloses
    rw [if_neg hpending]
    cases hdecide : decideOutcome clock input r with
    | ok r' =>
      rw [hdecide] at h
      cases h
    | error m =>
      have herror := (decideOutcome_take d review a dispositions (Bool.eq_false_iff.mpr hcloses)).1 m hdecide
      rw [herror]
      exact ⟨m, rfl⟩

variable (review dispositions) in
/-- The last check passes, and the plan is linked. -/
theorem applyOutcome_concludes (htaken : takenAssessment input r = a) (h : concludes clock input d r = true) :
    ∃ t, (t = r ↔ take review a dispositions r = r ∧ EndHeld clock input d r) ∧
      (∀ m, linked clock input r = .error m →
        applyOutcome clock input d (take review a dispositions r) = (t, .throws m)) ∧
      ∀ origin, linked clock input r = .ok origin →
        applyOutcome clock input d (take review a dispositions r) = (t, .persists origin) := by
  have hassessed := projectFactAssessment_take review dispositions htaken
  have hclosing : closes r = true →
      applyOutcome clock input d (take review a dispositions r) =
        (closeSent clock d (take review a dispositions r), .persists) →
      ∃ t, (t = r ↔ take review a dispositions r = r ∧ EndHeld clock input d r) ∧
        (∀ m, linked clock input r = .error m →
          applyOutcome clock input d (take review a dispositions r) = (t, .throws m)) ∧
        ∀ origin, linked clock input r = .ok origin →
          applyOutcome clock input d (take review a dispositions r) = (t, .persists origin) := by
    intro hcloses happly
    have hlinked : linked clock input r = .ok none := by
      unfold linked
      rw [hcloses, Bool.true_or, if_pos rfl]
    refine ⟨_, closeSent_take_eq hcloses, fun m hm => ?_, fun origin horigin => ?_⟩
    · rw [hlinked] at hm
      cases hm
    · rw [hlinked] at horigin
      rw [happly, ← Except.ok.inj horigin]
  unfold concludes at h
  by_cases hsent : r.status = .sent
  · refine hclosing (by unfold closes; rw [hsent]; rfl) ?_
    unfold applyOutcome
    rw [status_take, if_pos hsent]
  rw [if_neg hsent] at h
  by_cases hcloses : closes r = true
  · rw [if_pos hcloses, ← hassessed] at h
    refine hclosing hcloses ?_
    have hpending : (r.status = .fact_assessment_pending || r.status = .fact_record_pending) = true := by
      simpa [closes, hsent] using hcloses
    unfold applyOutcome
    rw [status_take, if_neg hsent, if_pos hpending]
    cases hfacts : (take review a dispositions r).projectFactAssessment with
    | none =>
      rw [hfacts] at h
      cases h
    | some v =>
      rw [hfacts, Option.any_some, Bool.not_eq_true'] at h
      dsimp only
      rw [if_neg (by rw [h]; decide)]
  · rw [if_neg hcloses] at h
    have hdecides : closes r = false := Bool.eq_false_iff.mpr hcloses
    have hpending : ¬ (r.status = .fact_assessment_pending || r.status = .fact_record_pending) = true := by
      simpa [closes, hsent] using hcloses
    cases hdecide : decideOutcome clock input r with
    | error m =>
      rw [hdecide] at h
      cases h
    | ok r' =>
      obtain ⟨t, ht, hid, hsource, hworker, heq⟩ := (decideOutcome_take d review a dispositions hdecides).2 r' hdecide
      have hlink : linkPlan clock input (decided clock d t) = linkPlan clock input r :=
        linkPlan_congr hid hsource hworker
      have hraw := hlink
      unfold decided at hraw
      refine ⟨decided clock d t, heq, fun m hm => ?_, fun origin horigin => ?_⟩
      · obtain ⟨hplan, herror⟩ := linked_error hm
        unfold applyOutcome
        rw [status_take, if_neg hsent, if_neg hpending, ht]
        dsimp only
        rw [hplan, if_neg Bool.false_ne_true, hraw, herror]
        rfl
      · unfold applyOutcome
        rw [status_take, if_neg hsent, if_neg hpending, ht]
        dsimp only
        rcases linked_ok hdecides horigin with ⟨hplan, rfl⟩ | ⟨hplan, o, rfl, ho⟩
        · rw [hplan, if_pos rfl]
          rfl
        · rw [hplan, if_neg Bool.false_ne_true, hraw, ho]
          rfl

end End

/-! ## Pruning -/

theorem get?_pruneAll_none {now : Time} (entries : List (JsString × Requirement)) (h : board.requirements.get? id =
    none) : (entries.foldl (pruneRequirement now) board).requirements.get? id = none := by
  cases hend : (entries.foldl (pruneRequirement now) board).requirements.get? id with
  | none => rfl
  | some r =>
    rw [get?_of_pruneAll entries hend] at h
    cases h

/-- A requirement that expires leaves the board. -/
theorem get?_pruneAll_of_expired (board : Board) {now : Time} (entries : List (JsString × Requirement)) (hmem : (id, r) ∈ entries)
    (h : expired now r = true) : (entries.foldl (pruneRequirement now) board).requirements.get? id = none := by
  induction entries generalizing board with
  | nil => cases hmem
  | cons entry entries ih =>
    rcases List.mem_cons.mp hmem with heq | hrest
    · rw [List.foldl_cons]
      refine get?_pruneAll_none entries ?_
      rw [← heq, get?_pruneRequirement, if_pos ⟨h, rfl⟩]
    · exact ih _ hrest

theorem get?_pruneExpiredState_iff {now : Time} (h : board.requirements.get? id = some r') :
    (pruneExpiredState now board).requirements.get? id = some r ↔ r' = r ∧ expired now r = false := by
  constructor
  · intro hkept
    have heq : r' = r := Option.some.inj (h.symm.trans (get?_of_pruneExpiredState hkept))
    refine ⟨heq, ?_⟩
    cases hexpired : expired now r with
    | false => rfl
    | true =>
      have hgone := get?_pruneAll_of_expired { board with
          dedupeRecords := board.dedupeRecords.keepIf fun _ expiresAt => now < expiresAt
          planOrigins := board.planOrigins.keepIf fun _ origin => !originExpired now origin }
        board.requirements.entries (InsertionMap.get?_eq_some.mp (heq ▸ h)) hexpired
      exact absurd (hkept.symm.trans hgone) (by simp)
  · rintro ⟨rfl, hnot⟩
    exact get?_pruneExpiredState h hnot

theorem planOrigins_pruneAll {now : Time} (entries : List (JsString × Requirement)) :
    (entries.foldl (pruneRequirement now) board).planOrigins = board.planOrigins := by
  induction entries generalizing board with
  | nil => rfl
  | cons entry entries ih =>
    rw [List.foldl_cons, ih]
    unfold pruneRequirement
    split <;> rfl

theorem planOrigins_pruneExpiredState {now : Time} : (pruneExpiredState now board).planOrigins =
    board.planOrigins.keepIf fun _ origin => !originExpired now origin :=
  planOrigins_pruneAll _

/-- The origins after the link, as pruning leaves them. -/
def linkOrigin (origin : Option PlanOrigin) (board : Board) : InsertionMap JsString PlanOrigin :=
  match origin with
  | none => board.planOrigins
  | some origin => board.planOrigins.set origin.key origin

theorem originsHeld_iff {now : Time} {origin : Option PlanOrigin} :
    ((linkOrigin origin board).keepIf fun _ item => !originExpired now item) = board.planOrigins ↔
      OriginsHeld now origin board := by
  have hlive : (∀ j b, board.planOrigins.get? j = some b → (!originExpired now b) = true) ↔
      ∀ item ∈ board.planOrigins.values, originExpired now item = false := by
    constructor
    · intro h item hitem
      obtain ⟨k, hk⟩ := InsertionMap.mem_values.mp hitem
      simpa using h k item hk
    · intro h j b hb
      rw [h b (InsertionMap.mem_values.mpr ⟨j, hb⟩)]
      rfl
  unfold OriginsHeld linkOrigin
  cases origin with
  | none =>
    rw [InsertionMap.keepIf_eq_self_iff, hlive]
    exact (and_iff_left fun item h => (by cases h)).symm
  | some o =>
    rw [InsertionMap.keepIf_set_eq_self_iff, hlive]
    simp only [Bool.not_eq_false', Option.some.injEq, forall_eq']

/-! ## One call -/

/-- The requirement and the origins of plans are as before. -/
def Unchanged (id : JsString) (s s' : Store) : Prop :=
  s'.board.requirements.get? id = s.board.requirements.get? id ∧ s'.board.planOrigins = s.board.planOrigins

section Call

variable {s : Store} {write : Write} {change : Requirement → Requirement × Change}

/-- The call, as far as its answer and its board go. -/
def Calls (clock : Clock) (write : Write) (id : JsString) (change : Requirement → Requirement × Change) (s : Store)
    (answer : Except JsString Result) (s' : Store) : Prop :=
  answer = (s.finish clock write (changeRequirement id change s.board)).1 ∧
    s'.board = (s.finish clock write (changeRequirement id change s.board)).2.board

variable {answer : Except JsString Result} {s' : Store}

theorem calls_missing (h : Calls clock write id change s answer s') (hid : s.board.requirements.get? id = none) :
    Unchanged id s s' := by
  have hbody : changeRequirement id change s.board =
      (s.board, .throws (js "Message processing requirement not found: " ++ id)) := by
    unfold changeRequirement
    rw [hid]
  obtain ⟨-, hboard⟩ := h
  rw [hbody] at hboard
  unfold Unchanged
  rw [hboard]
  exact ⟨rfl, rfl⟩

theorem calls_returns (h : Calls clock write id change s answer s') (hid : s.board.requirements.get? id = some r)
    (hchange : change r = (r', .returns)) (hanswer : ∃ m, answer = .error m) : False := by
  obtain ⟨m, rfl⟩ := hanswer
  obtain ⟨hanswer, -⟩ := h
  unfold changeRequirement at hanswer
  rw [hid] at hanswer
  dsimp only at hanswer
  rw [hchange] at hanswer
  cases hanswer

theorem calls_throws {m : JsString} (h : Calls clock write id change s answer s') (hid : s.board.requirements.get? id =
    some r) (hchange : change r = (r', .throws m)) : ((∃ m, answer = .error m) → Unchanged id s s') ↔ r' = r := by
  obtain ⟨hanswer, hboard⟩ := h
  unfold changeRequirement at hanswer hboard
  rw [hid] at hanswer hboard
  dsimp only at hanswer hboard
  rw [hchange] at hanswer hboard
  unfold Unchanged
  rw [hboard, hid]
  show (_ → (s.board.requirements.set id r').get? id = some r ∧ s.board.planOrigins = s.board.planOrigins) ↔ r' = r
  rw [InsertionMap.get?_set, if_pos rfl, Option.some.injEq, and_iff_left rfl]
  exact ⟨fun h => h ⟨m, hanswer⟩, fun h _ => h⟩

theorem calls_persists {origin : Option PlanOrigin} (h : Calls clock write id change s answer s')
    (hid : s.board.requirements.get? id = some r) (hchange : change r = (r', .persists origin)) :
    ((∃ m, answer = .error m) → Unchanged id s s') ↔
      (write ≠ none → r' = r ∧ expired (clock.reading 5) r = false ∧
        OriginsHeld (clock.reading 5) origin s.board) := by
  have hbody : ∃ result, changeRequirement id change s.board =
      ({ s.board with
          requirements := s.board.requirements.set id r'
          planOrigins := linkOrigin origin s.board }, .persists result) := by
    unfold changeRequirement
    rw [hid]
    dsimp only
    rw [hchange]
    cases origin with
    | none => exact ⟨_, rfl⟩
    | some origin => exact ⟨_, rfl⟩
  obtain ⟨result, hbody⟩ := hbody
  obtain ⟨hanswer, hboard⟩ := h
  rw [hbody] at hanswer hboard
  cases write with
  | none =>
    refine iff_of_true ?_ fun h => absurd rfl h
    rintro ⟨m, hm⟩
    rw [hm] at hanswer
    cases hanswer
  | some m =>
    have hthrows : ∃ m, answer = .error m := ⟨m, hanswer⟩
    rw [forall_prop_of_true hthrows, forall_prop_of_true (Option.some_ne_none m)]
    unfold Unchanged
    rw [hboard, hid]
    have hset : (s.board.requirements.set id r').get? id = some r' := by
      rw [InsertionMap.get?_set, if_pos rfl]
    refine Iff.trans (and_congr (get?_pruneExpiredState_iff hset) ?_) and_assoc
    rw [← originsHeld_iff]
    exact Eq.congr_left planOrigins_pruneExpiredState

end Call

/-! ## What the condition says, by the check that refuses -/

section Refused

variable {write : Write} {origin : Option PlanOrigin}

theorem refusedUnchanged_of_not_reviewed (h : ¬ Reviewed input r) : RefusedUnchanged clock input write board r where
  facts hreviewed := absurd hreviewed h
  knowledge hassessed := absurd hassessed.1 h
  criticalFacts hdisposed := absurd hdisposed.1.1 h
  conclusion _ haccepted := absurd haccepted.1.1.1 h
  plan _ haccepted := absurd haccepted.1.1.1 h
  write _ _ haccepted := absurd haccepted.1.1.1 h

theorem refusedUnchanged_facts (hreviewed : Reviewed input r) (h : (validateProjectFactAssessment r input).isOk = false)
    : RefusedUnchanged clock input write board r ↔ ReviewHeld input r := by
  have hnot : ¬ Assessed input r := fun hassessed => absurd hassessed.2 (by simp [h])
  constructor
  · intro hunchanged
    exact hunchanged.facts hreviewed h
  · intro hheld
    exact {
      facts := fun _ _ => hheld
      knowledge := fun hassessed => absurd hassessed hnot
      criticalFacts := fun hdisposed => absurd hdisposed.1 hnot
      conclusion := fun _ haccepted => absurd haccepted.1.1 hnot
      plan := fun _ haccepted => absurd haccepted.1.1 hnot
      write := fun _ _ haccepted => absurd haccepted.1.1 hnot }

theorem refusedUnchanged_knowledge (hassessed : Assessed input r) (h : (validateKnowledgeMatchDispositions r input).isOk
    = false) : RefusedUnchanged clock input write board r ↔ ReviewHeld input r ∧ AssessmentHeld input r := by
  have hnot : ¬ Disposed input r := fun hdisposed => absurd hdisposed.2 (by simp [h])
  constructor
  · intro hunchanged
    exact hunchanged.knowledge hassessed h
  · intro hheld
    exact {
      facts := fun _ hrefused => by simp [hassessed.2] at hrefused
      knowledge := fun _ _ => hheld
      criticalFacts := fun hdisposed => absurd hdisposed hnot
      conclusion := fun _ haccepted => absurd haccepted.1 hnot
      plan := fun _ haccepted => absurd haccepted.1 hnot
      write := fun _ _ haccepted => absurd haccepted.1 hnot }

theorem refusedUnchanged_criticalFacts (hdisposed : Disposed input r)
    (h : (validateCriticalFactDisposition (assess (takenAssessment input r) r) input).isOk = false) :
    RefusedUnchanged clock input write board r ↔ TakenHeld input r := by
  have hnot : ∀ d, ¬ FactsAccepted input r d := fun d haccepted => by simp [haccepted.2, Except.isOk, Except.toBool] at h
  constructor
  · intro hunchanged
    exact hunchanged.criticalFacts hdisposed h
  · intro hheld
    exact {
      facts := fun _ hrefused => by simp [hdisposed.1.2] at hrefused
      knowledge := fun _ hrefused => by simp [hdisposed.2] at hrefused
      criticalFacts := fun _ _ => hheld
      conclusion := fun d haccepted => absurd haccepted (hnot d)
      plan := fun d haccepted => absurd haccepted (hnot d)
      write := fun d _ haccepted => absurd haccepted (hnot d) }

theorem FactsAccepted.unique {d' : Option CriticalProjectFactDisposition} (h : FactsAccepted input r d)
    (h' : FactsAccepted input r d') : d = d' :=
  Except.ok.inj (h.2.symm.trans h'.2)

/-- Once the critical facts are accepted, the first three conditions say nothing. -/
theorem refusedUnchanged_accepted (haccepted : FactsAccepted input r d) :
    RefusedUnchanged clock input write board r ↔
      (concludes clock input d r = false → TakenHeld input r) ∧
      (concludes clock input d r = true → (linked clock input r).isOk = false →
        TakenHeld input r ∧ EndHeld clock input d r) ∧
      ∀ origin, concludes clock input d r = true → linked clock input r = .ok origin → write ≠ none →
        TakenHeld input r ∧ EndHeld clock input d r ∧ expired (clock.reading 5) r = false ∧
          OriginsHeld (clock.reading 5) origin board := by
  constructor
  · intro hunchanged
    exact ⟨hunchanged.conclusion d haccepted, hunchanged.plan d haccepted,
      fun origin => hunchanged.write d origin haccepted⟩
  · intro ⟨hconclusion, hplan, hwrite⟩
    exact {
      facts := fun _ hrefused => by simp [haccepted.1.1.2] at hrefused
      knowledge := fun _ hrefused => by simp [haccepted.1.2] at hrefused
      criticalFacts := fun _ hrefused => by simp [haccepted.2, Except.isOk, Except.toBool] at hrefused
      conclusion := fun d' haccepted' => haccepted.unique haccepted' ▸ hconclusion
      plan := fun d' haccepted' => haccepted.unique haccepted' ▸ hplan
      write := fun d' origin haccepted' => haccepted.unique haccepted' ▸ hwrite origin }

end Refused

theorem calls_of_step {s s' : Store} {answer : Except JsString Result} {write : Write}
    (hstep : (system functions).step (.call (.submitOutcome id input) clock write) s = some (answer, s')) :
    Calls clock write id (submitOutcome clock input) s answer s' := by
  simp only [system, MessageProcessing.step] at hstep
  split at hstep
  · cases hstep
  · split at hstep
    · obtain ⟨hanswer, hstore⟩ := Prod.mk.inj (Option.some.inj hstep)
      exact ⟨hanswer.symm, by rw [← hstore]; rfl⟩
    · cases hstep

/-! ## What `submitOutcome` leaves, by the check that refuses -/

section Submitted

variable {review : Option MessageSourceEvidenceReview} {a : Option ProjectFactAssessment}
  {dispositions : Option (List KnowledgeMatchDisposition)} {m : JsString}

theorem submitOutcome_evidence (hsubmit : answersAtOnce input r = false)
    (h : validateSourceEvidenceReview r input = .error m) : submitOutcome clock input r = (r, .throws m) := by
  unfold answersAtOnce at hsubmit
  unfold submitOutcome
  rw [hsubmit, if_neg Bool.false_ne_true, h]

theorem submitOutcome_facts (hsubmit : answersAtOnce input r = false) (hreview : validateSourceEvidenceReview r input =
    .ok review) (h : validateProjectFactAssessment r input = .error m) : submitOutcome clock input r = (takeReview
    review r, .throws m) := by
  have h' : validateProjectFactAssessment (takeReview review r) input = .error m := h
  unfold answersAtOnce at hsubmit
  unfold takeReview at h' ⊢
  unfold submitOutcome
  rw [hsubmit, if_neg Bool.false_ne_true, hreview]
  dsimp only
  rw [h']

theorem submitOutcome_knowledge (hsubmit : answersAtOnce input r = false) (hreview : validateSourceEvidenceReview r
    input = .ok review) (hassessment : validateProjectFactAssessment r input = .ok a) (h :
    validateKnowledgeMatchDispositions r input = .error m) : submitOutcome clock input r = (assess a (takeReview review
    r), .throws m) := by
  have hassessment' : validateProjectFactAssessment (takeReview review r) input = .ok a := hassessment
  have h' := (validateKnowledgeMatchDispositions_assess input r review a).trans h
  unfold answersAtOnce at hsubmit
  unfold takeReview at hassessment' h' ⊢
  unfold submitOutcome
  rw [hsubmit, if_neg Bool.false_ne_true, hreview]
  dsimp only
  rw [hassessment']
  dsimp only
  rw [h']

variable (clock) in
theorem submitOutcome_disposed (hsubmit : answersAtOnce input r = false)
    (hreview : validateSourceEvidenceReview r input = .ok review)
    (hassessment : validateProjectFactAssessment r input = .ok a)
    (hdispositions : validateKnowledgeMatchDispositions r input = .ok dispositions) :
    (∀ m, validateCriticalFactDisposition (assess a r) input = .error m →
      submitOutcome clock input r = (take review a dispositions r, .throws m)) ∧
    ∀ d, validateCriticalFactDisposition (assess a r) input = .ok d →
      submitOutcome clock input r = applyOutcome clock input d (take review a dispositions r) := by
  have hassessment' : validateProjectFactAssessment (takeReview review r) input = .ok a := hassessment
  have hdispositions' := (validateKnowledgeMatchDispositions_assess input r review a).trans hdispositions
  have hfacts := validateCriticalFactDisposition_take input r review a dispositions
  unfold answersAtOnce at hsubmit
  unfold take at hfacts ⊢
  unfold takeReview at hassessment' hdispositions' hfacts ⊢
  unfold submitOutcome
  rw [hsubmit, if_neg Bool.false_ne_true, hreview]
  dsimp only at hfacts ⊢
  rw [hassessment']
  dsimp only
  rw [hdispositions']
  dsimp only
  rw [hfacts]
  constructor
  · intro m hm
    rw [hm]
  · intro d hd
    rw [hd]

end Submitted

/-! ## Every call -/

/-- The outcome passes the first three checks. -/
theorem rejected_disposed {s s' : Store} {answer : Except JsString Result} {write : Write} {review : Option
    MessageSourceEvidenceReview} {a : Option ProjectFactAssessment} {dispositions : Option (List
    KnowledgeMatchDisposition)} (hcalls : Calls clock write id (submitOutcome clock input) s answer s') (hid :
    s.board.requirements.get? id = some r) (hassessed : Assessed input r) (hreview : validateSourceEvidenceReview r
    input = .ok review) (hassessment : validateProjectFactAssessment r input = .ok a) (hdispositions :
    validateKnowledgeMatchDispositions r input = .ok dispositions) : ((∃ m, answer = .error m) → Unchanged id s s') ↔
    RefusedUnchanged clock input write s.board r := by
  have hdisposed : Disposed input r := ⟨hassessed, by rw [hdispositions]; rfl⟩
  have htaken := takenAssessment_eq hreview hassessment
  have hheld := takenHeld_iff hreview hassessment hdispositions
  obtain ⟨hrefused, happlied⟩ := submitOutcome_disposed clock hassessed.1.1 hreview hassessment hdispositions
  cases hfacts : validateCriticalFactDisposition (assess a r) input with
  | error m =>
    rw [calls_throws hcalls hid (hrefused m hfacts),
      refusedUnchanged_criticalFacts hdisposed (by rw [htaken, hfacts]; rfl), hheld]
  | ok d =>
    have haccepted : FactsAccepted input r d := ⟨hdisposed, by rw [htaken, hfacts]⟩
    rw [refusedUnchanged_accepted haccepted, hheld]
    cases hconcludes : concludes clock input d r with
    | false =>
      obtain ⟨m, hm⟩ := applyOutcome_refused review dispositions htaken hconcludes
      rw [calls_throws hcalls hid ((happlied d hfacts).trans hm)]
      simp
    | true =>
      obtain ⟨t, ht, herror, hok⟩ := applyOutcome_concludes review dispositions htaken hconcludes
      cases hlinked : linked clock input r with
      | error m =>
        rw [calls_throws hcalls hid ((happlied d hfacts).trans (herror m hlinked)), ht]
        simp [Except.isOk, Except.toBool]
      | ok origin =>
        rw [calls_persists hcalls hid ((happlied d hfacts).trans (hok origin hlinked)), ht]
        simp [Except.isOk, Except.toBool, and_assoc]

/-- An outcome that is refused changes nothing exactly when nothing was new in what was accepted before. -/
theorem rejected_outcome (functions : Functions) {s s' : Store} {answer : Except JsString Result} {write : Write}
    (hstep : (system functions).step (.call (.submitOutcome id input) clock write) s = some (answer, s')) :
    ((∃ m, answer = .error m) → Unchanged id s s') ↔
      ∀ r, s.board.requirements.get? id = some r → RefusedUnchanged clock input write s.board r := by
  have hcalls := calls_of_step hstep
  cases hid : s.board.requirements.get? id with
  | none => exact iff_of_true (fun _ ↦ calls_missing hcalls hid) fun r hr ↦ (by cases hr)
  | some r =>
    simp only [Option.some.injEq, forall_eq']
    by_cases honce : answersAtOnce input r = true
    · have hchange : submitOutcome clock input r = (r, .returns) := if_pos honce
      refine iff_of_true (fun hanswer ↦ (calls_returns hcalls hid hchange hanswer).elim)
        (refusedUnchanged_of_not_reviewed fun hreviewed ↦ ?_)
      exact absurd hreviewed.1 (by simp [honce])
    have hsubmit : answersAtOnce input r = false := Bool.eq_false_iff.mpr honce
    cases hreview : validateSourceEvidenceReview r input with
    | error m =>
      rw [calls_throws hcalls hid (submitOutcome_evidence hsubmit hreview)]
      refine iff_of_true rfl (refusedUnchanged_of_not_reviewed fun hreviewed ↦ ?_)
      exact absurd hreviewed.2 (by simp [hreview, Except.isOk, Except.toBool])
    | ok review =>
      have hreviewed : Reviewed input r := ⟨hsubmit, by rw [hreview]; rfl⟩
      cases hassessment : validateProjectFactAssessment r input with
      | error m =>
        rw [calls_throws hcalls hid (submitOutcome_facts hsubmit hreview hassessment),
          refusedUnchanged_facts hreviewed (by rw [hassessment]; rfl), reviewHeld_iff hreview]
      | ok a =>
        have hassessed : Assessed input r := ⟨hreviewed, by rw [hassessment]; rfl⟩
        cases hdispositions : validateKnowledgeMatchDispositions r input with
        | error m =>
          rw [calls_throws hcalls hid (submitOutcome_knowledge hsubmit hreview hassessment hdispositions),
            refusedUnchanged_knowledge hassessed (by rw [hdispositions]; rfl), reviewHeld_iff hreview,
            assessmentHeld_iff hassessment, assess_takeReview_eq]
        | ok dispositions =>
          exact rejected_disposed hcalls hid hassessed hreview hassessment hdispositions

section

/-- A reply that names a plan, but no role. -/
def planReply : OutcomeInput :=
  { decision := .reply, planId := some (js "plan"), projectFactAssessment := some (assessment .none []) }

def linksWithoutRole (now : Time) : Event := .call (.submitOutcome (js "q") planReply) (clockAt now) none

def isRefused : Except JsString Result → Bool
  | .error _ => true
  | .ok _ => false

theorem refused_of_isRefused {answer : Except JsString Result} (h : isRefused answer = true) :
    ∃ m, answer = .error m := by
  cases answer with
  | error m => exact ⟨m, rfl⟩
  | ok result => cases h

/-- No role is known, so that the plan cannot be linked; but the requirement awaits its reply by then. -/
theorem rejected_outcome_changes : ∃ s answer s', (system plainFunctions).Reach {} s ∧
    (system plainFunctions).step (linksWithoutRole 2) s = some (answer, s') ∧ (∃ m, answer = .error m) ∧
      ¬ Unchanged (js "q") s s' := by
  have hrun : ((system plainFunctions).run {} [chatRequirement]).any
      (fun s ↦ ((system plainFunctions).step (linksWithoutRole 2) s).any fun result ↦
        isRefused result.1 && decide (result.2.board.requirements.get? (js "q") ≠
          s.board.requirements.get? (js "q"))) = true := by
    decide +kernel
  obtain ⟨s, hs, hend⟩ := (Option.any_eq_true _ _).mp hrun
  obtain ⟨⟨answer, s'⟩, hstep, hbad⟩ := (Option.any_eq_true _ _).mp hend
  simp only [Bool.and_eq_true, decide_eq_true_eq] at hbad
  exact ⟨s, answer, s', System.run_reach hs, hstep, refused_of_isRefused hbad.1, fun h ↦ hbad.2 h.1⟩

/-- The same outcome comes again in the same millisecond: the requirement holds all of it already. -/
theorem rejected_outcome_again : ∃ s answer s' r, (system plainFunctions).Reach {} s ∧
    (system plainFunctions).step (linksWithoutRole 2) s = some (answer, s') ∧ (∃ m, answer = .error m) ∧
      s.board.requirements.get? (js "q") = some r ∧ Unchanged (js "q") s s' ∧
      RefusedUnchanged (clockAt 2) planReply none s.board r := by
  have hrun : ((system plainFunctions).run {} [chatRequirement, linksWithoutRole 2]).any
      (fun s ↦ ((system plainFunctions).step (linksWithoutRole 2) s).any fun result ↦
        isRefused result.1 && (s.board.requirements.get? (js "q")).isSome &&
          decide (result.2.board.requirements.get? (js "q") = s.board.requirements.get? (js "q")) &&
          decide (result.2.board.planOrigins.entries = s.board.planOrigins.entries)) = true := by
    decide +kernel
  obtain ⟨s, hs, hend⟩ := (Option.any_eq_true _ _).mp hrun
  obtain ⟨⟨answer, s'⟩, hstep, hsame⟩ := (Option.any_eq_true _ _).mp hend
  simp only [Bool.and_eq_true, decide_eq_true_eq] at hsame
  obtain ⟨⟨⟨hrefused, hsome⟩, hrequirement⟩, horigins⟩ := hsame
  obtain ⟨r, hr⟩ := Option.isSome_iff_exists.mp hsome
  have hunchanged : Unchanged (js "q") s s' := ⟨hrequirement, InsertionMap.ext_entries horigins⟩
  exact ⟨s, answer, s', r, System.run_reach hs, hstep, refused_of_isRefused hrefused, hr, hunchanged,
    (rejected_outcome plainFunctions hstep).mp (fun _ ↦ hunchanged) r hr⟩

end

end RabiRoute.MessageProcessing
