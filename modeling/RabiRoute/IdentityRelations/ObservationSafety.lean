import RabiRoute.IdentityRelations.Copies
import RabiRoute.IdentityRelations.Observation

/-!
# What a refused observation leaves

The pass over an observation does not check everything that the updates check.  A relation is refused by its own
update when its evidence cannot be read, or when it is about a participant that is not current.
-/

open Collections Transitions.System

namespace RabiRoute.IdentityRelations

open IdentityRecord

/-! ## Texts that are read again -/

theorem collapseSpaces_cons {u : UInt16} (hu : JsString.isWhitespace u = false) (rest : JsString) :
    ∃ rest', collapseSpaces (u :: rest) = u :: rest' := by
  have hspace : ¬JsString.isWhitespace u = true := by
    rw [hu]
    exact Bool.false_ne_true
  cases rest with
  | nil =>
    unfold collapseSpaces
    rw [if_neg hspace]
    exact ⟨_, rfl⟩
  | cons v rest =>
    unfold collapseSpaces
    rw [if_neg hspace]
    exact ⟨_, rfl⟩

/-- A text that was read is not empty when it is read again. -/
theorem text_again {limit limit' : Nat} {value : Raw} {t : JsString} (hlimit : 0 < limit')
    (h : text limit value = some t) : ∃ t', text limit' (.text t) = some t' := by
  unfold text at h
  dsimp only at h
  generalize (if value.isNullish then [] else value.toText) = given at h
  split at h
  · cases h
  · rename_i hne
    have ht := Option.some.inj h
    have hheaded : JsString.Headed t := ht ▸ (JsString.headed_trim _).of_isPrefix (List.take_prefix _ _)
    cases t with
    | nil => exact absurd (by rw [ht]; rfl) hne
    | cons u rest =>
      obtain ⟨rest', hcollapse⟩ := collapseSpaces_cons (hheaded u rest rfl) rest
      have htrim : JsString.trim (u :: rest') ≠ [] := by
        refine JsString.Headed.trim_ne_nil (fun v t hv => ?_) (List.cons_ne_nil u rest')
        rw [← (List.cons.inj hv).1]
        exact hheaded u rest rfl
      have htake : ((JsString.trim (u :: rest')).take limit').isEmpty = false := by
        rw [List.isEmpty_eq_false_iff, ne_eq, List.take_eq_nil_iff, not_or]
        exact ⟨Nat.ne_of_gt hlimit, htrim⟩
      unfold text
      show ∃ t', (if ((JsString.trim (collapseSpaces (u :: rest))).take limit').isEmpty then none else some _) = _
      rw [hcollapse, htake]
      exact ⟨_, rfl⟩

theorem requiredText_again {limit limit' : Nat} {value : Raw} {label : String} {t : JsString} (hlimit : 0 < limit') (h :
    requiredText value label limit = .ok t) : ∃ t', text limit' (.text t) = some t' := by
  unfold requiredText at h
  cases htext : text limit value with
  | none =>
    rw [htext] at h
    cases h
  | some t₀ =>
    rw [htext] at h
    obtain rfl := Except.ok.inj h
    exact text_again hlimit htext

/-! ## The card of a relation -/

theorem targetKind_name (kind : IdentityRelationTargetKind) : targetKind (.text kind.name) = .ok kind := by
  cases kind <;> rfl

theorem status_candidate (fallback : IdentityRelationStatus) :
    status (.text (js "candidate")) fallback = .ok .candidate := rfl

theorem scope_toRaw (given : IdentityScope) : ∃ read, scope given.toRaw = .ok read := ⟨_, rfl⟩

theorem evidenceRefs_evidenceRaw (refs : List IdentityEvidenceRef) : ∃ read, evidenceRefs (evidenceRaw refs) = .ok read :=
  ⟨_, rfl⟩

theorem requireConflictResolutionFields_given (conflicted : Bool) {required : List (String × Bool)}
    (h : ∀ field ∈ required, field.2 = true) : requireConflictResolutionFields conflicted required = .ok () := by
  have hmissing : (required.filter fun field => !field.2) = [] := by
    rw [List.filter_eq_nil_iff]
    intro field hfield
    rw [h field hfield]
    exact Bool.false_ne_true
  unfold requireConflictResolutionFields
  rw [hmissing, List.map_nil]
  dsimp only
  rw [List.isEmpty_nil, Bool.not_true, Bool.and_false, if_neg Bool.false_ne_true]
  rfl

/-- The texts of a relation that has passed can be read again. -/
structure PreparedRelation.Readable (r : PreparedRelation) : Prop where
  targetId : ∃ t, text 300 (.text r.targetId) = some t
  relationship : ∃ t, text 600 (.text r.relationship) = some t

variable {functions : Functions} {p : PreparedObservation} {r : PreparedRelation}

/-- The card does not depend on the log; whether it is refused does. -/
theorem cardRecord_relationPatch (functions : Functions) (p : PreparedObservation) (hr : r.Readable) (refs : List IdentityEvidenceRef) :
    ∃ target relationship scope read, text 300 (.text r.targetId) = some target ∧ ∀ log fresh,
      cardRecord functions log fresh (p.relationPatch r refs) =
        (requiredText (.text p.participant.id) "subjectParticipantId" 300 >>= fun subject =>
          let card : IdentityRelationCard := ⟨cardKey fresh (p.relationPatch r refs), subject, r.targetKind, target,
            relationship, .candidate, scope, read, fresh.now⟩
          requireCurrentCard functions log card >>= fun _ => pure card) := by
  obtain ⟨target, htarget⟩ := hr.targetId
  obtain ⟨relationship, hrelationship⟩ := hr.relationship
  obtain ⟨scope, hscope⟩ := scope_toRaw r.scope
  obtain ⟨read, hread⟩ := evidenceRefs_evidenceRaw (uniqueEvidenceRefs (r.existingEvidence ++ refs ++ p.evidence))
  refine ⟨target, relationship, scope, read, htarget, fun log fresh => ?_⟩
  have hfields : ∀ conflicted, requireConflictResolutionFields conflicted [("subjectParticipantId", true),
      ("targetKind", true), ("targetId", true), ("relationship", true), ("status", true), ("scope", true),
      ("evidenceRefs", true)] = .ok () := by
    intro conflicted
    apply requireConflictResolutionFields_given
    simp
  have htargetId : requiredText (.text r.targetId) "targetId" 300 = .ok target := by
    unfold requiredText
    rw [htarget]
    rfl
  have hrelated : requiredText (.text r.relationship) "relationship" 600 = .ok relationship := by
    unfold requiredText
    rw [hrelationship]
    rfl
  have hok {α β : Type} (a : α) (f : α → Except String β) : (Except.ok a >>= f) = f a := rfl
  simp only [cardRecord, PreparedObservation.relationPatch, given, givenOr, Option.getD_some, Raw.isNullish,
    Bool.false_eq_true, if_false, Option.isSome_some, hfields, readGiven, Option.elim_some, targetKind_name,
    status_candidate, hscope, hread, htargetId, hrelated, hok]

/-! ## Views of a log that has grown -/

section Grown

variable {T : Type} [IdentityRecord T] [DecidableEq T] [LawfulIdentityRecord T] {log : IdentityLog}

theorem eventsOf_append_logged (log : IdentityLog) (e : IdentityRelationEvent T) :
    eventsOf T (log ++ [logged e]) = eventsOf T log ++ [e] := by
  unfold eventsOf
  rw [List.filterMap_append, List.filterMap_cons_some (LawfulIdentityRecord.event_eq_some.mpr rfl), List.filterMap_nil]

/-- An event changes no view but that of its record. -/
theorem getRecord_append_ne {e : IdentityRelationEvent T} {rid : JsString} (h : recordId e.record ≠ rid) :
    getRecord functions T (log ++ [logged e]) rid = getRecord functions T log rid := by
  have hgroup : groupOf (eventsOf T (log ++ [logged e])) rid = groupOf (eventsOf T log) rid := by
    unfold groupOf
    rw [eventsOf_append_logged, List.filter_append, List.filter_cons_of_neg (by simpa using h), List.filter_nil,
      List.append_nil]
  rw [getRecord_eq, getRecord_eq, hgroup]

/-- An event that replaces all heads of its record is what its view shows. -/
theorem getRecord_append {e : IdentityRelationEvent T} (h : WellFormed functions (eventsOf T log))
    (h' : WellFormed functions (eventsOf T (log ++ [logged e])))
    (hheads : ∀ head ∈ headsOf (groupOf (eventsOf T log) (recordId e.record)), e.replaces head.id = true) :
    ∃ v, getRecord functions T (log ++ [logged e]) (recordId e.record) = some v ∧ v.conflicted = false ∧
      conflictComparable v.record = conflictComparable e.record := by
  have hmem : e ∈ eventsOf T (log ++ [logged e]) := by
    rw [eventsOf_append_logged]
    exact List.mem_append_right _ (List.mem_singleton.mpr rfl)
  have honly : ∀ head, Unsuperseded (eventsOf T (log ++ [logged e])) head →
      recordId head.record = recordId e.record → head = e := by
    intro head hun hrid
    obtain ⟨hhead, hnot⟩ := hun
    rw [eventsOf_append_logged] at hhead
    cases List.mem_append.mp hhead with
    | inr hnew => exact List.mem_singleton.mp hnew
    | inl hold =>
      have hold' : Unsuperseded (eventsOf T log) head := by
        refine ⟨hold, fun other hother => hnot other ?_⟩
        rw [eventsOf_append_logged]
        exact List.mem_append_left _ hother
      have hreplaced := hheads head (h.mem_heads.mpr ⟨hold', hrid⟩)
      exact absurd hreplaced (Bool.eq_false_iff.mp (hnot e hmem))
  obtain ⟨v, hv⟩ := getRecord_isSome h' (mem_recordIds_iff.mpr ⟨e, hmem, rfl⟩)
  refine ⟨v, hv, ?_, ?_⟩
  · rw [Bool.eq_false_iff, ne_eq, getRecord_conflicted h' hv]
    rintro ⟨x, -, y, -, hx, hy, hxid, hyid, hne⟩
    rw [honly x hx hxid, honly y hy hyid] at hne
    exact hne rfl
  · rw [getRecord_eq] at hv
    obtain ⟨head, hhead, -, hcomparable⟩ := collapse_head hv
    obtain ⟨hun, hrid⟩ := h'.mem_heads.mp hhead
    rw [hcomparable, honly head hun hrid]

omit [LawfulIdentityRecord T] in
theorem headsOf_eq_nil_of_getState {rid : JsString} (h : getState functions T log rid = none) :
    headsOf (groupOf (eventsOf T log) rid) = [] := by
  by_contra hne
  obtain ⟨v, hv⟩ : ∃ v, collapseRecordState functions (headsOf (groupOf (eventsOf T log) rid)) = some v :=
    collapse_isSome hne
  have hrecord : getRecord functions T log rid = some v := (getRecord_eq functions log rid).trans hv
  unfold getRecord at hrecord
  rw [h] at hrecord
  cases hrecord

omit [IdentityRecord T] [DecidableEq T] [LawfulIdentityRecord T] in
theorem replaces_nextEvent {fresh : Fresh} {heads : List (IdentityRelationEvent T)} {record : T}
    {head : IdentityRelationEvent T} (h : head ∈ heads) : (nextEvent fresh heads record).replaces head.id = true := by
  show decide (head.id ∈ sortTexts (heads.map (·.id))) = true
  exact decide_eq_true ((List.mem_insertionSort _).mpr (List.mem_map.mpr ⟨head, h, rfl⟩))

omit [LawfulIdentityRecord T] in
/-- Either the view has the content already, or an event of the record replaces all its heads. -/
theorem appendRecord_appended (functions : Functions) (log : IdentityLog) (fresh : Fresh) (updated : Viewed T → UpdatedRecord) (record : T) :
    (appendRecord functions log fresh updated record).1.appended = false ∧
        (appendRecord functions log fresh updated record).2 = log ∧
        (∃ v, getRecord functions T log (recordId record) = some v ∧ v.same record = true) ∨
      (appendRecord functions log fresh updated record).1.appended = true ∧
        ∃ e, (appendRecord functions log fresh updated record).2 = log ++ [logged e] ∧ e.record = record ∧
          ∀ head ∈ headsOf (groupOf (eventsOf T log) (recordId record)), e.replaces head.id = true := by
  unfold appendRecord
  cases hstate : getState functions T log (recordId record) with
  | none =>
    refine .inr ⟨rfl, nextEvent fresh [] record, rfl, rfl, ?_⟩
    rw [headsOf_eq_nil_of_getState hstate]
    intro head hhead
    cases hhead
  | some existing =>
    dsimp only
    split
    · rename_i hsame
      refine .inl ⟨rfl, rfl, existing.record, ?_, hsame⟩
      unfold getRecord
      rw [hstate]
      rfl
    · refine .inr ⟨rfl, nextEvent fresh existing.heads record, rfl, rfl, fun head hhead => replaces_nextEvent ?_⟩
      rw [getState_eq] at hstate
      obtain ⟨view, -, rfl⟩ := Option.map_eq_some_iff.mp hstate
      exact hhead

/-- The view of the record does not have its content. -/
def differs (functions : Functions) (log : IdentityLog) (record : T) : Bool :=
  !(getRecord functions T log (recordId record)).any (·.same record)

omit [LawfulIdentityRecord T] in
theorem appended_eq_differs (fresh : Fresh) (updated : Viewed T → UpdatedRecord) (record : T) :
    (appendRecord functions log fresh updated record).1.appended = differs functions log record := by
  unfold appendRecord differs getRecord
  cases getState functions T log (recordId record) with
  | none => rfl
  | some existing =>
    rw [Option.map_some, Option.any_some]
    dsimp only
    cases existing.record.same record with
    | true => rfl
    | false => rfl

end Grown

/-! ## Participants that are current -/

/-- The participant is there, without a conflict, and not retired. -/
def isCurrent (functions : Functions) (log : IdentityLog) (participantId : JsString) : Bool :=
  (getRecord functions IdentityParticipant log participantId).any usableParticipant

theorem requireCurrentParticipant_isOk (log : IdentityLog) (participantId : JsString) (label : String) :
    (requireCurrentParticipant functions log participantId label false).isOk = isCurrent functions log participantId := by
  unfold requireCurrentParticipant isCurrent usableParticipant
  cases getRecord functions IdentityParticipant log participantId with
  | none => rfl
  | some participant =>
    rw [Option.any_some]
    dsimp only
    cases participant.conflicted with
    | true => rfl
    | false =>
      cases participant.record.status.isActive with
      | false => rfl
      | true => rfl

/-- What the update of the participant leaves to those of the relations: it is current, and the others are as
they were. -/
structure After (functions : Functions) (log log' : IdentityLog) (subject : JsString) : Prop where
  current : isCurrent functions log' subject = true
  others : ∀ id, id ≠ subject → isCurrent functions log' id = isCurrent functions log id

theorem status_of_comparable {r r' : IdentityParticipant} (h : conflictComparable r = conflictComparable r') :
    r.status = r'.status := by
  have hstatus (r : IdentityParticipant) : (conflictComparable r).status = r.status := by
    show (if r.isObserved then _ else _ : IdentityParticipant).status = r.status
    split <;> rfl
  rw [← hstatus r, h, hstatus]

theorem after_appendRecord {log : IdentityLog} {fresh : Fresh} {record : IdentityParticipant}
    (h : WellFormed functions (eventsOf IdentityParticipant log))
    (h' : WellFormed functions (eventsOf IdentityParticipant
      (appendRecord functions log fresh .participant record).2)) (hstatus : record.status = .candidate) :
    After functions log (appendRecord functions log fresh .participant record).2 record.id := by
  have hactive : IdentityRelationStatus.candidate.isActive = true := rfl
  obtain ⟨-, hlog, v, hv, hsame⟩ | ⟨-, e, hlog, hrecord, hheads⟩ :=
    appendRecord_appended functions log fresh .participant record
  · rw [hlog]
    refine ⟨?_, fun _ _ => rfl⟩
    unfold Viewed.same at hsame
    simp only [Bool.and_eq_true, Bool.not_eq_true', decide_eq_true_eq] at hsame
    have hcomparable : (comparable v.record).status = (comparable record).status := by rw [hsame.2]
    have hvstatus : v.record.status = record.status := hcomparable
    have hv : getRecord functions IdentityParticipant log record.id = some v := hv
    unfold isCurrent usableParticipant
    rw [hv, Option.any_some, hsame.1.1, hvstatus, hstatus, hactive]
    rfl
  · rw [hlog] at h' ⊢
    subst hrecord
    constructor
    · obtain ⟨v, hv, hconflicted, hcomparable⟩ := getRecord_append h h' hheads
      have hv : getRecord functions IdentityParticipant (log ++ [logged e]) e.record.id = some v := hv
      unfold isCurrent usableParticipant
      rw [hv, Option.any_some, hconflicted, status_of_comparable hcomparable, hstatus, hactive]
      rfl
    · intro id hid
      unfold isCurrent
      rw [getRecord_append_ne (T := IdentityParticipant) (fun heq => hid heq.symm)]

/-! ## The relations -/

/-- The update of the relation refuses it.  After the update of the participant, that one is current. -/
def refused (functions : Functions) (log : IdentityLog) (p : PreparedObservation) (r : PreparedRelation) : Bool :=
  !(evidenceRefs r.evidenceRefs).isOk || (text 300 (.text p.participant.id)).isNone ||
    (r.targetKind == .participant && (text 300 (.text r.targetId)).any fun target ↦
      decide (text 300 (.text p.participant.id) ≠ some target) && !isCurrent functions log target)

theorem isOk_bind {α β : Type} {x : Except String α} {f : α → Except String β} (ok : Bool)
    (h : ∀ a, x = .ok a → (f a).isOk = ok) : (x >>= f).isOk = (x.isOk && ok) := by
  cases x with
  | error e => rfl
  | ok a => exact h a rfl

/-- `After`, where the id of the participant can be read at all. -/
def AfterParticipant (functions : Functions) (log log' : IdentityLog) (p : PreparedObservation) : Prop :=
  ∀ subject, text 300 (.text p.participant.id) = some subject → After functions log log' subject

variable {log log' : IdentityLog}

theorem relationUpdate_isOk (hr : r.Readable) (hafter : AfterParticipant functions log log' p) (fresh : Fresh) :
    (relationUpdate functions log' fresh p r).isOk = !refused functions log p r := by
  unfold relationUpdate refused
  rw [isOk_bind ((text 300 (.text p.participant.id)).isSome &&
    !(r.targetKind == .participant && (text 300 (.text r.targetId)).any fun target =>
      decide (text 300 (.text p.participant.id) ≠ some target) && !isCurrent functions log target))]
  · simp only [Bool.not_or, Bool.not_not, Option.not_isNone, Bool.and_assoc]
  intro refs _
  obtain ⟨target, relationship, scope, read, htarget, hcard⟩ := cardRecord_relationPatch functions p hr
    refs
  have hupdate : (updateIdentityRelation functions log' fresh (p.relationPatch r refs)).isOk =
      (cardRecord functions log' fresh (p.relationPatch r refs)).isOk := by
    show ((cardRecord functions log' fresh (p.relationPatch r refs)) >>= fun record =>
      pure (appendRecord functions log' fresh .relationCard record)).isOk = _
    rw [isOk_bind true (fun _ _ => rfl), Bool.and_true]
  rw [hupdate, hcard, htarget, Option.any_some]
  unfold requiredText
  cases hsubject : text 300 (.text p.participant.id) with
  | none => rfl
  | some subject =>
    have hafter := hafter subject hsubject
    show ((requireCurrentParticipant functions log' subject "subjectParticipantId" false >>= fun _ =>
      if r.targetKind = .participant then requireCurrentParticipant functions log' target "targetId" false
      else pure ()) >>= fun _ => pure _).isOk = _
    rw [isOk_bind true (fun _ _ => rfl), Bool.and_true,
      isOk_bind (r.targetKind != .participant || isCurrent functions log' target),
      requireCurrentParticipant_isOk, hafter.current, Option.isSome_some, Bool.true_and, Bool.true_and]
    · by_cases htargetSubject : subject = target
      · subst htargetSubject
        rw [hafter.current]
        simp
      · rw [hafter.others target fun heq => htargetSubject heq.symm]
        have hother : decide (some subject ≠ some target) = true :=
          decide_eq_true fun heq => htargetSubject (Option.some.inj heq)
        rw [hother, Bool.true_and, Bool.not_and, Bool.not_not]
        rfl
    · intro _ _
      by_cases hkind : r.targetKind = .participant
      · rw [if_pos hkind, requireCurrentParticipant_isOk, hkind]
        rfl
      · rw [if_neg hkind, bne_iff_ne.mpr hkind]
        rfl

theorem refused_eq (hr : r.Readable) (hafter : AfterParticipant functions log log' p) (fresh : Fresh) :
    refused functions log p r = !(relationUpdate functions log' fresh p r).isOk := by
  rw [relationUpdate_isOk hr hafter, Bool.not_not]

/-- The update of a relation changes no view of a participant. -/
theorem relationUpdate_log {fresh : Fresh} {result : UpdateResult} {log'' : IdentityLog}
    (h : relationUpdate functions log' fresh p r = .ok (result, log'')) :
    (result.appended = false ∧ log'' = log') ∨
      (result.appended = true ∧ (∃ e, log'' = log' ++ [e]) ∧
        ∀ id, isCurrent functions log'' id = isCurrent functions log' id) := by
  obtain ⟨refs, -, h⟩ := Fallible.bind_ok.mp h
  obtain ⟨card, -, hok⟩ := Fallible.bind_ok.mp (show (cardRecord functions log' fresh _ >>= fun record =>
    pure (appendRecord functions log' fresh .relationCard record)) = _ from h)
  have hok : appendRecord functions log' fresh .relationCard card = (result, log'') := Except.ok.inj hok
  have happended := appendRecord_appended functions log' fresh .relationCard card
  rw [hok] at happended
  obtain ⟨happended, hlog, -⟩ | ⟨happended, e, hlog, -, -⟩ := happended
  · exact .inl ⟨happended, hlog⟩
  · refine .inr ⟨happended, ⟨_, hlog⟩, fun id => ?_⟩
    have hlog : log'' = log' ++ [.relationCard e] := hlog
    have hevents : eventsOf IdentityParticipant (log' ++ [.relationCard e]) = eventsOf IdentityParticipant log' := by
      unfold eventsOf
      rw [List.filterMap_append, List.filterMap_cons_none rfl, List.filterMap_nil, List.append_nil]
    unfold isCurrent
    rw [hlog, getRecord_eq, getRecord_eq, hevents]

theorem AfterParticipant.congr {log'' : IdentityLog} (h : AfterParticipant functions log log' p)
    (hsame : ∀ id, isCurrent functions log'' id = isCurrent functions log' id) :
    AfterParticipant functions log log'' p := fun subject hsubject =>
  ⟨(hsame subject).trans (h subject hsubject).current, fun id hid =>
    (hsame id).trans ((h subject hsubject).others id hid)⟩

variable {fresh : Nat → Fresh}

/-- The updates succeed exactly when no relation is refused. -/
theorem recordRelations_isOk (fresh : Nat → Fresh) {relations : List PreparedRelation} (hr : ∀ r ∈ relations, r.Readable)
    (hafter : AfterParticipant functions log log' p) (n : Nat) :
    (recordRelations functions fresh p n relations log').1.isOk = !relations.any (refused functions log p) ∧
      log' <+: (recordRelations functions fresh p n relations log').2 := by
  induction relations generalizing n log' with
  | nil => exact ⟨rfl, List.prefix_rfl⟩
  | cons r relations ih =>
    have hok := refused_eq (hr r List.mem_cons_self) hafter (fresh n)
    unfold recordRelations
    cases hupdate : relationUpdate functions log' (fresh n) p r with
    | error message =>
      rw [hupdate] at hok
      have hrefused : refused functions log p r = true := hok
      dsimp only
      rw [List.any_cons, hrefused]
      exact ⟨rfl, List.prefix_rfl⟩
    | ok updated =>
      obtain ⟨result, log''⟩ := updated
      rw [hupdate] at hok
      have hrefused : refused functions log p r = false := hok
      dsimp only
      rw [List.any_cons, hrefused, Bool.false_or]
      have hmap {x : Except String (List UpdateResult)} : (x.map (result :: ·)).isOk = x.isOk := by
        cases x <;> rfl
      rw [hmap]
      have hrest (hafter' : AfterParticipant functions log log'' p) :=
        ih (fun r hmem => hr r (List.mem_cons_of_mem _ hmem)) hafter' (n + 1)
      obtain ⟨-, rfl⟩ | ⟨-, ⟨e, hlog⟩, hsame⟩ := relationUpdate_log hupdate
      · exact hrest hafter
      · obtain ⟨hok', hgrown⟩ := hrest (hafter.congr hsame)
        refine ⟨hok', List.IsPrefix.trans ?_ hgrown⟩
        rw [hlog]
        exact List.prefix_append _ _

/-- The card that the update of the relation would write. -/
def relationCard (functions : Functions) (log : IdentityLog) (fresh : Fresh) (p : PreparedObservation)
    (r : PreparedRelation) : Except String IdentityRelationCard :=
  evidenceRefs r.evidenceRefs >>= fun refs ↦ cardRecord functions log fresh (p.relationPatch r refs)

theorem relationUpdate_eq (log : IdentityLog) (fresh : Fresh) :
    relationUpdate functions log fresh p r = (relationCard functions log fresh p r).map
      (appendRecord functions log fresh .relationCard) := by
  unfold relationUpdate relationCard
  cases evidenceRefs r.evidenceRefs with
  | error message => rfl
  | ok refs =>
    show (cardRecord functions log fresh (p.relationPatch r refs) >>= fun record =>
      pure (appendRecord functions log fresh .relationCard record)) =
        (cardRecord functions log fresh (p.relationPatch r refs)).map _
    cases cardRecord functions log fresh (p.relationPatch r refs) with
    | error message => rfl
    | ok card => rfl

/-- The view of the relation does not have the content of its card. -/
def changes (functions : Functions) (log : IdentityLog) (fresh : Fresh) (p : PreparedObservation)
    (r : PreparedRelation) : Bool :=
  (relationCard functions log fresh p r).toOption.any (differs functions log)

theorem changes_eq {log' : IdentityLog} {fresh : Fresh} {result : UpdateResult} (h : relationUpdate functions log fresh
    p r = .ok (result, log')) : changes functions log fresh p r = result.appended := by
  rw [relationUpdate_eq] at h
  obtain ⟨card, hcard, hresult⟩ := Fallible.map_ok.mp h
  unfold changes
  rw [hcard]
  show differs functions log card = result.appended
  rw [← appended_eq_differs fresh .relationCard card, hresult]

/-- A relation before the first refused one is changed. -/
def changedBefore (functions : Functions) (fresh : Nat → Fresh) (log : IdentityLog) (p : PreparedObservation) :
    Nat → List PreparedRelation → Bool
  | _, [] => false
  | n, r :: relations => !refused functions log p r &&
      (changes functions log (fresh n) p r || changedBefore functions fresh log p (n + 1) relations)

theorem recordRelations_log {relations : List PreparedRelation} (hr : ∀ r ∈ relations, r.Readable)
    (hafter : AfterParticipant functions log log p) (n : Nat) :
    (recordRelations functions fresh p n relations log).2 = log ↔
      changedBefore functions fresh log p n relations = false := by
  induction relations generalizing n with
  | nil => exact ⟨fun _ => rfl, fun _ => rfl⟩
  | cons r relations ih =>
    have hok := refused_eq (hr r List.mem_cons_self) hafter (fresh n)
    have hrest := fun r hmem => hr r (List.mem_cons_of_mem _ hmem)
    unfold recordRelations changedBefore
    cases hupdate : relationUpdate functions log (fresh n) p r with
    | error message =>
      rw [hupdate] at hok
      have hrefused : refused functions log p r = true := hok
      rw [hrefused]
      exact ⟨fun _ => rfl, fun _ => rfl⟩
    | ok updated =>
      obtain ⟨result, log'⟩ := updated
      rw [hupdate] at hok
      have hrefused : refused functions log p r = false := hok
      rw [hrefused, changes_eq hupdate, Bool.not_false, Bool.true_and]
      obtain ⟨happended, rfl⟩ | ⟨happended, ⟨e, hlog⟩, hsame⟩ := relationUpdate_log hupdate
      · rw [happended, Bool.false_or]
        exact ih hrest (n + 1)
      · rw [happended, Bool.true_or]
        refine iff_of_false (fun heq => ?_) (by decide)
        have hgrown := (recordRelations_isOk fresh hrest (hafter.congr hsame) (n + 1)).2
        rw [heq, hlog] at hgrown
        have hlength := hgrown.length_le
        rw [List.length_append, List.length_singleton] at hlength
        omega

/-! ## The pass, and the update of the participant -/

theorem prepareRelation_readable {observation : IdentityCandidateObservation} {participant : IdentityParticipant}
    {raw : IdentityCandidateRelationObservation}
    (h : prepareRelation functions log observation participant raw = .ok r) : r.Readable := by
  unfold prepareRelation at h
  obtain ⟨scope, -, h⟩ := Fallible.bind_ok.mp h
  obtain ⟨targetKind, -, h⟩ := Fallible.bind_ok.mp h
  obtain ⟨targetId, htarget, h⟩ := Fallible.bind_ok.mp h
  obtain ⟨relationship, hrelationship, h⟩ := Fallible.bind_ok.mp h
  dsimp only at h
  split at h
  · cases h
  · cases Except.ok.inj h
    exact ⟨requiredText_again (by omega) htarget, requiredText_again (by omega) hrelationship⟩

theorem prepareObservation_readable {observation : IdentityCandidateObservation}
    (h : prepareObservation functions log observation = .ok p) : ∀ r ∈ p.relations, r.Readable := by
  unfold prepareObservation at h
  obtain ⟨account, -, h⟩ := Fallible.bind_ok.mp h
  obtain ⟨participant, -, h⟩ := Fallible.bind_ok.mp h
  obtain ⟨evidence, -, h⟩ := Fallible.bind_ok.mp h
  obtain ⟨relations, hrelations, h⟩ := Fallible.bind_ok.mp h
  cases Except.ok.inj h
  intro r hr
  obtain ⟨raw, -, hraw⟩ := Fallible.exists_of_mem_mapM hrelations hr
  exact prepareRelation_readable hraw

theorem participantRecord_participantPatch {fresh : Fresh} {kind : Raw} {record : IdentityParticipant}
    (h : participantRecord functions log fresh (p.participantPatch kind) = .ok record) :
    record.status = .candidate ∧
      ∀ subject, text 300 (.text p.participant.id) = some subject → record.id = subject := by
  unfold participantRecord at h
  obtain ⟨-, -, h⟩ := Fallible.bind_ok.mp h
  obtain ⟨kind', -, h⟩ := Fallible.bind_ok.mp h
  obtain ⟨aliases, -, h⟩ := Fallible.bind_ok.mp h
  obtain ⟨habits, -, h⟩ := Fallible.bind_ok.mp h
  obtain ⟨status', hstatus, h⟩ := Fallible.bind_ok.mp h
  obtain ⟨refs, -, h⟩ := Fallible.bind_ok.mp h
  cases Except.ok.inj h
  refine ⟨?_, fun subject hsubject => ?_⟩
  · exact (Except.ok.inj hstatus).symm
  · show participantKey fresh (p.participantPatch kind) = subject
    unfold participantKey
    show (text 300 (.text p.participant.id)).getD _ = subject
    rw [hsubject]
    rfl

theorem updateParticipant_eq (functions : Functions) (p : PreparedObservation) (log : IdentityLog) (fresh : Fresh) (kind : Raw) :
    updateIdentityRelation functions log fresh (p.participantPatch kind) =
      (participantRecord functions log fresh (p.participantPatch kind)).map
        (appendRecord functions log fresh .participant) := by
  show (participantRecord functions log fresh (p.participantPatch kind) >>= fun record =>
    pure (appendRecord functions log fresh .participant record)) = _
  cases participantRecord functions log fresh (p.participantPatch kind) with
  | error message => rfl
  | ok record => rfl

/-! ## Refused observations -/

/-- The pass and the update of the participant accept the observation, a relation is refused, and by then the
participant or a relation has been changed. -/
def refusedLate (functions : Functions) (fresh : Nat → Fresh) (log : IdentityLog)
    (observation : IdentityCandidateObservation) : Bool :=
  (prepareObservation functions log observation).toOption.any fun p ↦
    (participantRecord functions log (fresh 0) (p.participantPatch observation.participantKind)).toOption.any
      fun record ↦ p.relations.any (refused functions log p) &&
        (differs functions log record || changedBefore functions fresh log p 1 p.relations)

/-- A new event makes the log longer than every log that it continues. -/
theorem ne_of_appended {e : LogEvent} {log'' : IdentityLog} (h : log ++ [e] <+: log'') : log'' ≠ log := by
  intro heq
  have hlength := h.length_le
  rw [heq, List.length_append, List.length_singleton] at hlength
  omega

theorem recordIdentityCandidateObservation_log (h : WellFormedLog functions log)
    (h' : ∀ patch result log', updateIdentityRelation functions log (fresh 0) patch = .ok (result, log') →
      WellFormedLog functions log') (observation : IdentityCandidateObservation) :
    ((recordIdentityCandidateObservation functions fresh log observation).1.isOk = false →
      (recordIdentityCandidateObservation functions fresh log observation).2 = log) ↔
        refusedLate functions fresh log observation = false := by
  unfold recordIdentityCandidateObservation refusedLate
  cases hprepare : prepareObservation functions log observation with
  | error message => exact ⟨fun _ => rfl, fun _ _ => rfl⟩
  | ok p =>
    have hreadable := prepareObservation_readable hprepare
    dsimp only
    cases hrecord : participantRecord functions log (fresh 0) (p.participantPatch observation.participantKind) with
    | error message =>
      rw [updateParticipant_eq, hrecord]
      show _ ↔ Option.any _ (some p) = false
      rw [Option.any_some, hrecord]
      exact ⟨fun _ => rfl, fun _ _ => rfl⟩
    | ok record =>
      obtain ⟨hstatus, hid⟩ := participantRecord_participantPatch hrecord
      have hupdate := updateParticipant_eq functions p log (fresh 0) observation.participantKind
      rw [hrecord] at hupdate
      have hupdate : updateIdentityRelation functions log (fresh 0) _ =
        .ok (appendRecord functions log (fresh 0) .participant record) := hupdate
      have hwell := h' _ _ _ hupdate
      have hafter : AfterParticipant functions log (appendRecord functions log (fresh 0) .participant record).2 p :=
        fun subject hsubject => hid subject hsubject ▸
          after_appendRecord h.participants hwell.participants hstatus
      rw [hupdate]
      show _ ↔ Option.any _ (some p) = false
      rw [Option.any_some, hrecord]
      show _ ↔ (p.relations.any (refused functions log p) &&
        (differs functions log record || changedBefore functions fresh log p 1 p.relations)) = false
      obtain ⟨hok, hgrown⟩ := recordRelations_isOk fresh hreadable hafter 1
      have hmap {x : Except String (List UpdateResult)} {result : UpdateResult} :
          (x.map (ObservationResult.mk result ·)).isOk = x.isOk := by
        cases x <;> rfl
      dsimp only
      rw [hmap, hok]
      cases p.relations.any (refused functions log p) with
      | false => exact ⟨fun _ => rfl, fun _ hrefused => by cases hrefused⟩
      | true =>
        rw [Bool.not_true, Bool.true_and, ← appended_eq_differs (fresh 0) .participant record]
        obtain ⟨happended, hlog, -⟩ | ⟨happended, e, hlog, -⟩ :=
          appendRecord_appended functions log (fresh 0) .participant record
        · rw [hlog] at hafter
          rw [happended, hlog, Bool.false_or, ← recordRelations_log hreadable hafter 1]
          exact ⟨fun hkept => hkept rfl, fun heq _ => heq⟩
        · rw [happended, Bool.true_or]
          rw [hlog] at hgrown ⊢
          exact iff_of_false (fun hkept => ne_of_appended hgrown (hkept rfl)) (by decide)

/-- In every state that updates and merges reach, a refused observation leaves the log, with all its lists and
contexts, exactly when it is not refused late. -/
theorem refused_observation_writes_nothing (functions : Functions) (hf : functions.Lawful) (s : Copies)
    (hreach : (copies functions).Reach Copies.initial s) (log : IdentityLog) (hlog : log ∈ s.logs)
    (fresh : Nat → Fresh) (hfresh : (fresh 0).suits s.history) (observation : IdentityCandidateObservation) :
    ((recordIdentityCandidateObservation functions fresh log observation).1.isOk = false →
      (recordIdentityCandidateObservation functions fresh log observation).2 = log ∧
        SameResults functions log (recordIdentityCandidateObservation functions fresh log observation).2) ↔
      refusedLate functions fresh log observation = false := by
  have hheld := hreach.invariant held_initial fun event s a s' h _ hstep ↦ step_held h hstep
  have hwell := hheld.written.wellFormedLog hf (hheld.lines log hlog)
  have hupdated : ∀ patch result log', updateIdentityRelation functions log (fresh 0) patch = .ok (result, log') →
      WellFormedLog functions log' := by
    intro patch result log' hupdate
    obtain ⟨copy, hcopy⟩ := List.mem_iff_getElem?.mp hlog
    have hstep : (copies functions).step (.update copy (fresh 0) patch) s =
        some (some result, ⟨s.logs.set copy log', s.history ++ log'.drop log.length⟩) := by
      show (if (fresh 0).suits s.history then _ else none) = _
      rw [if_pos hfresh, hcopy, Option.map_some, hupdate]
    have hheld' := step_held hheld hstep
    exact hheld'.written.wellFormedLog hf (hheld'.lines log' (List.mem_set (List.getElem?_eq_some_iff.mp hcopy).1 _))
  rw [← recordIdentityCandidateObservation_log hwell hupdated]
  have hsame : SameResults functions log log := ⟨rfl, rfl, rfl, rfl, fun _ ↦ rfl⟩
  constructor
  · exact fun hkept hrefused ↦ (hkept hrefused).1
  · intro hkept hrefused
    have heq := hkept hrefused
    rw [heq]
    exact ⟨rfl, hsame⟩

/-! ## A relation to nobody -/

section Nobody

/-- The digests of the account and of the relation below. -/
def nobodyFunctions : Functions :=
  { unitFunctions with
    sha256 := fun t ↦
      if t = js "qq\x00main\x00alice" then js "4075f8818c76e45d80c894ca49087aaa"
      else js "06bfd372d1daef3328c8ff0b4b615db7" }

theorem lawful_nobodyFunctions : nobodyFunctions.Lawful := ⟨lawful_unitFunctions.order, lawful_unitFunctions.told⟩

/-- A participant, and an account with the participant as its candidate. -/
def introduced : List CopyEvent :=
  [.update 0 (drawn 49) (named "C"),
    .update 0 (drawn 50)
      { kind := some .endpointAccount
        platform := some (.text (js "qq"))
        endpointIdentityNamespace := some (.text (js "main"))
        senderStableId := some (.text (js "alice"))
        participantLinks := some (.list [.record [(js "participantId", .text (js "cotton"))]]) }]

/-- The participant has a new name, and a brother. -/
def brother (targetKind targetId : String) : IdentityCandidateObservation where
  platform := .text (js "qq")
  endpointIdentityNamespace := .text (js "main")
  senderStableId := .text (js "alice")
  conversationKey := none
  projectId := none
  participantId := .undefined
  participantKind := .undefined
  participantDisplayName := .text (js "Cotton")
  aliases := .undefined
  evidenceRefs := .list [.record [(js "messageId", .text (js "m-1"))]]
  relations := some [⟨.text (js targetKind), .text (js targetId), .text (js "brother"), .undefined, .undefined⟩]

/-- The draws of one observation. -/
def draws (n : Nat) : Fresh := drawn (51 + UInt16.ofNat n)

/-- A kind that does not exist is refused by the pass. -/
theorem refused_observation_writes_nothing_kind :
    ∃ s, (copies nobodyFunctions).Reach Copies.initial s ∧ ∃ log ∈ s.logs, log.length = 2 ∧
      (recordIdentityCandidateObservation nobodyFunctions draws log (brother "somebody" "nobody")).1.isOk = false ∧
      (recordIdentityCandidateObservation nobodyFunctions draws log (brother "somebody" "nobody")).2 = log := by
  have hrun : ((copies nobodyFunctions).run Copies.initial introduced).any (fun s ↦ decide
      (∃ log ∈ s.logs, log.length = 2 ∧ (draws 0).suits s.history ∧
        (recordIdentityCandidateObservation nobodyFunctions draws log (brother "somebody" "nobody")).1.isOk = false ∧
        refusedLate nobodyFunctions draws log (brother "somebody" "nobody") = false)) = true := by
    decide +kernel
  obtain ⟨s, hs, hlogs⟩ := (Option.any_eq_true _ _).mp hrun
  obtain ⟨log, hlog, hlength, hfresh, hrefused, hlate⟩ := of_decide_eq_true hlogs
  exact ⟨s, run_reach hs, log, hlog, hlength, hrefused, ((refused_observation_writes_nothing nobodyFunctions
    lawful_nobodyFunctions s (run_reach hs) log hlog draws hfresh _).mpr hlate hrefused).1⟩

/-- A participant that does not exist is refused when the new name has been written. -/
theorem refused_observation_renames :
    ∃ s, (copies nobodyFunctions).Reach Copies.initial s ∧ ∃ log ∈ s.logs, (draws 0).suits s.history ∧
      (recordIdentityCandidateObservation nobodyFunctions draws log (brother "participant" "nobody")).1.isOk = false ∧
      (recordIdentityCandidateObservation nobodyFunctions draws log (brother "participant" "nobody")).2.length =
        log.length + 1 ∧
      (listIdentityParticipants nobodyFunctions log).map (·.record.displayName) = [some (js "C")] ∧
      (listIdentityParticipants nobodyFunctions (recordIdentityCandidateObservation nobodyFunctions draws log
        (brother "participant" "nobody")).2).map (·.record.displayName) = [some (js "Cotton")] := by
  have hrun : ((copies nobodyFunctions).run Copies.initial introduced).any (fun s ↦ decide
      (∃ log ∈ s.logs, (draws 0).suits s.history ∧
        (recordIdentityCandidateObservation nobodyFunctions draws log (brother "participant" "nobody")).1.isOk = false ∧
        (recordIdentityCandidateObservation nobodyFunctions draws log (brother "participant" "nobody")).2.length =
          log.length + 1 ∧
        (listIdentityParticipants nobodyFunctions log).map (·.record.displayName) = [some (js "C")] ∧
        (listIdentityParticipants nobodyFunctions (recordIdentityCandidateObservation nobodyFunctions draws log
          (brother "participant" "nobody")).2).map (·.record.displayName) = [some (js "Cotton")])) = true := by
    decide +kernel
  obtain ⟨s, hs, hlogs⟩ := (Option.any_eq_true _ _).mp hrun
  exact ⟨s, run_reach hs, of_decide_eq_true hlogs⟩

end Nobody

end RabiRoute.IdentityRelations
