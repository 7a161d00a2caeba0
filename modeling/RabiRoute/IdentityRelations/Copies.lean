import RabiRoute.IdentityRelations.Convergence
import RabiRoute.Transitions.System

/-!
# Copies of an identity log

Any number of copies of the log of one role.  An update continues one copy; a new copy may take any lines of
the copies there are, in any order and any number of times.
-/

open Collections Transitions.System

namespace RabiRoute.IdentityRelations

open IdentityRecord

/-- Lower-case letters, digits and hyphens. -/
def isPlain (u : UInt16) : Bool := u == 45 || (48 ≤ u && u ≤ 57) || (97 ≤ u && u ≤ 122)

def isUuid (t : JsString) : Bool := t.length == 36 && t.all isPlain

/-- What is documented of the language: `localeCompare` is an order, and tells plain texts apart. -/
structure Functions.Lawful (functions : Functions) : Prop where
  order : Std.TransCmp functions.localeCompare
  told : ∀ a b, a.all isPlain = true → b.all isPlain = true → functions.localeCompare a b = .eq → a = b

structure Copies where
  logs : List IdentityLog
  /-- All the events that were ever written, for the statements only. -/
  history : IdentityLog

inductive CopyEvent where
  /-- One update of a copy.  The automatic functions write through it too. -/
  | update (copy : Nat) (fresh : Fresh) (patch : IdentityRelationPatch)
  /-- A new copy of the given lines of the copies. -/
  | gather (lines : List (Nat × Nat))

/-- A UUID that no event has. -/
def Fresh.suits (fresh : Fresh) (history : IdentityLog) : Prop :=
  isUuid fresh.eventUuid = true ∧ ∀ e ∈ history, e.id ≠ eventId fresh.eventUuid

instance (fresh : Fresh) (history : IdentityLog) : Decidable (fresh.suits history) :=
  inferInstanceAs (Decidable (_ ∧ _))

def copies (functions : Functions) : Transitions.System Copies CopyEvent (Option UpdateResult) where
  step event s :=
    match event with
    | .update copy fresh patch =>
      if fresh.suits s.history then
        (s.logs[copy]?).map fun log ↦
          match updateIdentityRelation functions log fresh patch with
          | .ok (result, log') => (some result, ⟨s.logs.set copy log', s.history ++ log'.drop log.length⟩)
          | .error _ => (none, s)
      else none
    | .gather lines =>
      some (none, { s with logs := s.logs ++ [lines.filterMap fun line ↦ (s.logs[line.1]?).bind (·[line.2]?)] })

/-- One copy, with no event yet. -/
def Copies.initial : Copies := ⟨[[]], []⟩

/-! ## Plain texts -/

theorem isWhitespace_of_isPlain {u : UInt16} (h : isPlain u = true) : JsString.isWhitespace u = false := by
  unfold isPlain at h
  unfold JsString.isWhitespace
  simp only [Bool.or_eq_true, beq_iff_eq, Bool.and_eq_true, decide_eq_true_eq, UInt16.le_iff_toNat_le,
    ← UInt16.toNat_inj] at h
  simp only [Bool.or_eq_false_iff, beq_eq_false_iff_ne, Bool.and_eq_false_iff, decide_eq_false_iff_not, ne_eq,
    UInt16.le_iff_toNat_le, ← UInt16.toNat_inj]
  simp only [UInt16.reduceToNat] at h ⊢
  omega

theorem collapseSpaces_plain {t : JsString} (h : ∀ u ∈ t, JsString.isWhitespace u = false) : collapseSpaces t = t := by
  fun_induction collapseSpaces t with
  | case1 => rfl
  | case2 u hu => rw [h u List.mem_cons_self] at hu; cases hu
  | case3 u _ => rfl
  | case4 u v rest hu _ _ => rw [h u List.mem_cons_self] at hu; cases hu
  | case5 u v rest hu _ _ => rw [h u List.mem_cons_self] at hu; cases hu
  | case6 u v rest _ ih => rw [ih fun w hw => h w (List.mem_cons_of_mem _ hw)]

/-- A reader leaves a plain text that is not too long as it is. -/
theorem text_plain {t : JsString} {limit : Nat} (h : t.all isPlain = true) (hne : t ≠ []) (hlength : t.length ≤ limit) :
    text limit (.text t) = some t := by
  have hspace : ∀ u ∈ t, JsString.isWhitespace u = false := fun u hu =>
    isWhitespace_of_isPlain (List.all_eq_true.mp h u hu)
  unfold text
  simp only [Raw.isNullish, Bool.false_eq_true, if_false, Raw.toText]
  rw [collapseSpaces_plain hspace, JsString.trim_plain hspace, List.take_of_length_le hlength,
    if_neg (by simpa using hne)]

theorem eventId_plain {uuid : JsString} (h : isUuid uuid = true) :
    (eventId uuid).all isPlain = true ∧ eventId uuid ≠ [] ∧ (eventId uuid).length ≤ 300 := by
  obtain ⟨hlength, hall⟩ := Bool.and_eq_true_iff.mp h
  have hprefix : (js "identity-relation-event-").all isPlain = true := by decide
  have hsize : (js "identity-relation-event-").length = 24 := by decide
  unfold eventId
  refine ⟨?_, ?_, ?_⟩
  · rw [List.all_append, hprefix, hall]
    rfl
  · intro hnil
    have hzero := congrArg List.length hnil
    rw [List.length_append, hsize] at hzero
    simp at hzero
  · rw [List.length_append, hsize, beq_iff_eq.mp hlength]
    omega

/-! ## What an update appends -/

theorem mem_headsOf {T : Type} {group : List (IdentityRelationEvent T)} {e : IdentityRelationEvent T}
    (he : e ∈ headsOf group) : e ∈ group := by
  unfold headsOf at he
  dsimp only at he
  split at he
  · exact List.mem_of_getLast? (Option.mem_toList.mp he)
  · exact (List.mem_filter.mp he).1

/-- The event has a new id and supersedes events of its record that the log holds. -/
structure Continues (fresh : Fresh) (log : IdentityLog) (e : LogEvent) : Prop where
  id : e.id = eventId fresh.eventUuid
  supersedes : ∃ ids, e.supersedes = some ids ∧ ∀ i ∈ ids, ∃ p ∈ log, p.id = i ∧ p.key = e.key

section Kind

variable {T : Type} [IdentityRecord T] [DecidableEq T] [LawfulIdentityRecord T] {functions : Functions}
  {log log' : IdentityLog} {fresh : Fresh} {result : UpdateResult}

omit [DecidableEq T] in
theorem mem_eventsOf [DecidableEq T] [LawfulIdentityRecord T] {e : IdentityRelationEvent T} :
    e ∈ eventsOf T log ↔ logged e ∈ log := by
  unfold eventsOf
  rw [List.mem_filterMap]
  constructor
  · rintro ⟨l, hl, hevent⟩
    exact LawfulIdentityRecord.event_eq_some.mp hevent ▸ hl
  · intro hmem
    exact ⟨_, hmem, LawfulIdentityRecord.event_eq_some.mpr rfl⟩

theorem continues_nextEvent {heads : List (IdentityRelationEvent T)} {record : T} (hheads : ∀ e ∈ heads, e ∈ groupOf
    (eventsOf T log) (recordId record)) : Continues fresh log (logged (nextEvent fresh heads record)) := by
  refine ⟨LawfulIdentityRecord.id_logged _, sortTexts (heads.map (·.id)), LawfulIdentityRecord.supersedes_logged _,
    fun i hi => ?_⟩
  obtain ⟨e, he, rfl⟩ := List.mem_map.mp ((List.mem_insertionSort _).mp hi)
  obtain ⟨hmem, hrid⟩ := mem_groupOf.mp (hheads e he)
  refine ⟨logged e, mem_eventsOf.mp hmem, LawfulIdentityRecord.id_logged e, ?_⟩
  rw [LawfulIdentityRecord.key_logged, LawfulIdentityRecord.key_logged, hrid]
  rfl

theorem appendRecord_cases {updated : Viewed T → UpdatedRecord} {record : T} (h : appendRecord functions log fresh
    updated record = (result, log')) : log' = log ∨ ∃ e, log' = log ++ [e] ∧ Continues fresh log e := by
  unfold appendRecord at h
  cases hstate : getState functions T log (recordId record) with
  | none =>
    rw [hstate] at h
    cases h
    exact .inr ⟨_, rfl, continues_nextEvent fun e he => by cases he⟩
  | some existing =>
    rw [hstate] at h
    dsimp only at h
    split at h
    · cases h
      exact .inl rfl
    · cases h
      refine .inr ⟨_, rfl, continues_nextEvent fun e he => ?_⟩
      rw [getState_eq] at hstate
      obtain ⟨record, -, rfl⟩ := Option.map_eq_some_iff.mp hstate
      exact mem_headsOf he

end Kind

theorem updateIdentityRelation_cases {functions : Functions} {log log' : IdentityLog} {fresh : Fresh} {patch :
    IdentityRelationPatch} {result : UpdateResult} (h : updateIdentityRelation functions log fresh patch = .ok (result,
    log')) : log' = log ∨ ∃ e, log' = log ++ [e] ∧ Continues fresh log e := by
  unfold updateIdentityRelation at h
  split at h
  · obtain ⟨record, -, hok⟩ := Fallible.bind_ok.mp h
    exact appendRecord_cases (Except.ok.inj hok)
  · obtain ⟨record, -, hok⟩ := Fallible.bind_ok.mp h
    exact appendRecord_cases (Except.ok.inj hok)
  · obtain ⟨record, -, hok⟩ := Fallible.bind_ok.mp h
    exact appendRecord_cases (Except.ok.inj hok)
  · cases h

/-! ## Every copy is well formed -/

/-- The events in the order in which they were written, each with what it found. -/
inductive Written : IdentityLog → Prop
  | nil : Written []
  | snoc {history : IdentityLog} {e : LogEvent} {fresh : Fresh} : Written history → fresh.suits history →
      Continues fresh history e → Written (history ++ [e])

theorem Continues.mono {fresh : Fresh} {log history : IdentityLog} {e : LogEvent} (h : Continues fresh log e)
    (hlog : ∀ l ∈ log, l ∈ history) : Continues fresh history e := by
  obtain ⟨ids, hids, hfound⟩ := h.supersedes
  refine ⟨h.id, ids, hids, fun i hi => ?_⟩
  obtain ⟨p, hp, heq⟩ := hfound i hi
  exact ⟨p, hlog p hp, heq⟩

section Written

variable {history : IdentityLog} {e e' : LogEvent}

theorem Written.plain (h : Written history) (he : e ∈ history) : ∃ uuid, isUuid uuid = true ∧ e.id = eventId uuid := by
  induction h with
  | nil => cases he
  | snoc _ hfresh hcontinues ih =>
    rcases List.mem_append.mp he with he | he
    · exact ih he
    · cases List.mem_singleton.mp he
      exact ⟨_, hfresh.1, hcontinues.id⟩

theorem Written.unique (h : Written history) (he : e ∈ history) (he' : e' ∈ history) (hid : e.id = e'.id) : e = e' := by
  induction h with
  | nil => cases he
  | snoc _ hfresh hcontinues ih =>
    rcases List.mem_append.mp he with hold | hnew
    · rcases List.mem_append.mp he' with hold' | hnew'
      · exact ih hold hold'
      · cases List.mem_singleton.mp hnew'
        exact absurd (hid.trans hcontinues.id) (hfresh.2 e hold)
    · rcases List.mem_append.mp he' with hold' | hnew'
      · cases List.mem_singleton.mp hnew
        exact absurd (hid.symm.trans hcontinues.id) (hfresh.2 e' hold')
      · rw [List.mem_singleton.mp hnew, List.mem_singleton.mp hnew']

/-- An event supersedes events of its record that were written before it. -/
theorem Written.supersedes (h : Written history) (he : e ∈ history) :
    ∃ ids, e.supersedes = some ids ∧ ∀ i ∈ ids, ∃ p ∈ history, p.id = i ∧ p.key = e.key ∧
      (history.map LogEvent.id).idxOf i < (history.map LogEvent.id).idxOf e.id := by
  induction h with
  | nil => cases he
  | @snoc history last fresh hwritten hfresh hcontinues ih =>
    have hold : ∀ p ∈ history, ((history ++ [last]).map LogEvent.id).idxOf p.id =
        (history.map LogEvent.id).idxOf p.id := by
      intro p hp
      rw [List.map_append, List.idxOf_append_of_mem (List.mem_map.mpr ⟨p, hp, rfl⟩)]
    rcases List.mem_append.mp he with he | he
    · obtain ⟨ids, hids, hfound⟩ := ih he
      refine ⟨ids, hids, fun i hi => ?_⟩
      obtain ⟨p, hp, rfl, hkey, hlt⟩ := hfound i hi
      rw [hold p hp, hold e he]
      exact ⟨p, List.mem_append_left _ hp, rfl, hkey, hlt⟩
    · cases List.mem_singleton.mp he
      obtain ⟨ids, hids, hfound⟩ := hcontinues.supersedes
      refine ⟨ids, hids, fun i hi => ?_⟩
      obtain ⟨p, hp, rfl, hkey⟩ := hfound i hi
      refine ⟨p, List.mem_append_left _ hp, rfl, hkey, ?_⟩
      have hnew : e.id ∉ history.map LogEvent.id := fun hmem => by
        obtain ⟨q, hq, heq⟩ := List.mem_map.mp hmem
        exact hfresh.2 q hq (heq.trans hcontinues.id)
      rw [hold p hp, List.map_append, List.idxOf_append_of_notMem hnew]
      exact Nat.lt_of_lt_of_le (List.idxOf_lt_length_of_mem (List.mem_map.mpr ⟨p, hp, rfl⟩)) (Nat.le_add_right _ _)

/-- Whatever lines a copy holds, its events are well formed. -/
theorem Written.wellFormed {T : Type} [IdentityRecord T] [DecidableEq T] [LawfulIdentityRecord T]
    {functions : Functions} (hf : functions.Lawful) (h : Written history) {log : IdentityLog}
    (hlog : ∀ l ∈ log, l ∈ history) : WellFormed functions (eventsOf T log) := by
  have hmem : ∀ {e : IdentityRelationEvent T}, e ∈ eventsOf T log → logged e ∈ history :=
    fun he => hlog _ (mem_eventsOf.mp he)
  have hinj : ∀ {e e' : IdentityRelationEvent T}, e ∈ eventsOf T log → e' ∈ eventsOf T log → e.id = e'.id → e = e' := by
    intro e e' he he' hid
    have hlogged : logged e = logged e' := h.unique (hmem he) (hmem he') (by
      rw [LawfulIdentityRecord.id_logged, LawfulIdentityRecord.id_logged, hid])
    exact Option.some.inj ((LawfulIdentityRecord.event_eq_some.mpr rfl).symm.trans
      (LawfulIdentityRecord.event_eq_some.mpr hlogged))
  have hsupersedes : ∀ {e : IdentityRelationEvent T}, e ∈ eventsOf T log → ∃ ids, e.supersedes = some ids ∧
      ∀ i ∈ ids, ∃ p ∈ history, p.id = i ∧ p.key = (kind T, recordId e.record) ∧
        (history.map LogEvent.id).idxOf i < (history.map LogEvent.id).idxOf e.id := by
    intro e he
    have hfound := h.supersedes (hmem he)
    rw [LawfulIdentityRecord.supersedes_logged, LawfulIdentityRecord.key_logged, LawfulIdentityRecord.id_logged] at hfound
    exact hfound
  have hreplaces : ∀ {e : IdentityRelationEvent T}, e ∈ eventsOf T log → ∀ i, e.replaces i = true →
      ∃ p ∈ history, p.id = i ∧ p.key = (kind T, recordId e.record) ∧
        (history.map LogEvent.id).idxOf i < (history.map LogEvent.id).idxOf e.id := by
    intro e he i hi
    obtain ⟨ids, hids, hfound⟩ := hsupersedes he
    unfold IdentityRelationEvent.replaces at hi
    rw [hids, Option.any_some, decide_eq_true_eq] at hi
    exact hfound i hi
  constructor
  · exact fun e he e' he' => hinj he he'
  · intro e he
    obtain ⟨ids, hids, hfound⟩ := hsupersedes he
    refine ⟨ids, hids, fun i hi => ?_⟩
    obtain ⟨p, hp, rfl, -⟩ := hfound i hi
    obtain ⟨uuid, huuid, hid⟩ := h.plain hp
    obtain ⟨hplain, hne, hlength⟩ := eventId_plain huuid
    rw [hid]
    exact text_plain hplain hne hlength
  · intro e he e' he' hi
    obtain ⟨p, hp, hid, hkey, -⟩ := hreplaces he' e.id hi
    have heq : p = logged e := h.unique hp (hmem he) (by rw [hid, LawfulIdentityRecord.id_logged])
    rw [heq, LawfulIdentityRecord.key_logged] at hkey
    exact (Prod.mk.inj hkey).2.symm
  · exact ⟨(history.map LogEvent.id).idxOf, fun e he i hi => by
      obtain ⟨p, hp, rfl, -, hlt⟩ := hreplaces he i hi
      exact hlt⟩
  · intro e he e' he' heq
    have hplain : ∀ {e : IdentityRelationEvent T}, e ∈ eventsOf T log → e.id.all isPlain = true := by
      intro e he
      obtain ⟨uuid, huuid, hid⟩ := h.plain (hmem he)
      rw [LawfulIdentityRecord.id_logged] at hid
      rw [hid]
      exact (eventId_plain huuid).1
    exact hinj he he' (hf.told _ _ (hplain he) (hplain he') heq)

theorem Written.wellFormedLog {functions : Functions} (hf : functions.Lawful) (h : Written history)
    {log : IdentityLog} (hlog : ∀ l ∈ log, l ∈ history) : WellFormedLog functions log :=
  ⟨h.wellFormed hf hlog, h.wellFormed hf hlog, h.wellFormed hf hlog⟩

end Written

/-- Every copy holds events that were written. -/
structure Held (s : Copies) : Prop where
  written : Written s.history
  lines : ∀ log ∈ s.logs, ∀ l ∈ log, l ∈ s.history

theorem held_initial : Held Copies.initial :=
  ⟨.nil, fun log hlog l hl => by
    cases List.mem_singleton.mp hlog
    exact hl⟩

theorem step_held {functions : Functions} {event : CopyEvent} {s s' : Copies} {a : Option UpdateResult} (h : Held s)
    (hstep : (copies functions).step event s = some (a, s')) : Held s' := by
  cases event with
  | gather lines =>
    cases hstep
    refine ⟨h.written, fun log hlog l hl => ?_⟩
    rcases List.mem_append.mp hlog with hlog | hlog
    · exact h.lines log hlog l hl
    · cases List.mem_singleton.mp hlog
      obtain ⟨line, -, hline⟩ := List.mem_filterMap.mp hl
      obtain ⟨source, hsource, hindex⟩ := Option.bind_eq_some_iff.mp hline
      exact h.lines source (List.mem_of_getElem? hsource) l (List.mem_of_getElem? hindex)
  | update copy fresh patch =>
    simp only [copies] at hstep
    split at hstep
    · next hfresh =>
        obtain ⟨log, hlog, heq⟩ := Option.map_eq_some_iff.mp hstep
        have hold : ∀ l ∈ log, l ∈ s.history := h.lines log (List.mem_of_getElem? hlog)
        split at heq
        · next result log' hok =>
            cases heq
            rcases updateIdentityRelation_cases hok with rfl | ⟨e, rfl, hcontinues⟩
            · rw [List.drop_length, List.append_nil]
              refine ⟨h.written, fun l hl => ?_⟩
              rcases List.mem_or_eq_of_mem_set hl with hl | rfl
              · exact h.lines l hl
              · exact hold
            · rw [List.drop_left]
              refine ⟨.snoc h.written hfresh (hcontinues.mono hold), fun l hl m hm => ?_⟩
              rcases List.mem_or_eq_of_mem_set hl with hl | rfl
              · exact List.mem_append_left _ (h.lines l hl m hm)
              · rcases List.mem_append.mp hm with hm | hm
                · exact List.mem_append_left _ (hold m hm)
                · exact List.mem_append_right _ hm
        · cases heq
          exact h
    · cases hstep

/-! ## Convergence -/

/-- The views of one kind say what the set of its events says. -/
structure FaithfulKind (functions : Functions) (T : Type) [IdentityRecord T] [DecidableEq T] (log : IdentityLog) :
    Prop where
  viewed : ∀ e ∈ eventsOf T log, ∃ v ∈ listRecords functions T log, recordId v.record = recordId e.record
  conflicted : ∀ v ∈ listRecords functions T log,
    v.conflicted = true ↔ Conflicted (eventsOf T log) (recordId v.record)
  /-- An event that is not superseded is a candidate of the conflict, or the view has its content. -/
  unsuperseded : ∀ v ∈ listRecords functions T log, ∀ e, Unsuperseded (eventsOf T log) e →
    recordId e.record = recordId v.record →
      (∀ c, v.conflict = some c → e.id ∈ c.conflictEventIds ∧ (e.id, e.record) ∈ c.conflictCandidates) ∧
        (v.conflict = none → conflictComparable v.record = conflictComparable e.record)

structure Faithful (functions : Functions) (log : IdentityLog) : Prop where
  accounts : FaithfulKind functions IdentityEndpointAccount log
  participants : FaithfulKind functions IdentityParticipant log
  cards : FaithfulKind functions IdentityRelationCard log
  confirmed : ∀ lookup context person, resolveIdentityRelationContext functions log lookup = some context →
    context.confirmedParticipant = some person →
      ¬Conflicted (eventsOf IdentityEndpointAccount log) context.endpoint.id ∧
        ¬Conflicted (eventsOf IdentityParticipant log) person.record.id

structure SameResults (functions : Functions) (log log' : IdentityLog) : Prop where
  accounts : listIdentityEndpointAccounts functions log = listIdentityEndpointAccounts functions log'
  participants : listIdentityParticipants functions log = listIdentityParticipants functions log'
  cards : listIdentityRelationCards functions log = listIdentityRelationCards functions log'
  conflicts : listIdentityRelationConflicts functions log = listIdentityRelationConflicts functions log'
  contexts : ∀ lookup, resolveIdentityRelationContext functions log lookup =
    resolveIdentityRelationContext functions log' lookup

/-- The heads of conflicted records have as many lines in both logs, and what compares as equal comes in the
same order. -/
structure Settled (functions : Functions) (log log' : IdentityLog) : Prop where
  accounts : SettledAlike functions IdentityEndpointAccount log log'
  participants : SettledAlike functions IdentityParticipant log log'
  cards : SettledAlike functions IdentityRelationCard log log'
  conflicts : TiesAgree (compareLabels functions) (conflictedRecords log) (conflictedRecords log')

theorem WellFormed.faithfulKind {T : Type} [IdentityRecord T] [DecidableEq T] [LawfulIdentityRecord T] {functions :
    Functions} {log : IdentityLog} (h : WellFormed functions (eventsOf T log)) : FaithfulKind functions T log := by
  constructor
  · intro e he
    obtain ⟨v, hv⟩ := getRecord_isSome h (mem_recordIds_iff.mpr ⟨e, he, rfl⟩)
    exact ⟨v, (mem_listRecords h).mpr ⟨_, hv⟩, getRecord_recordId h hv⟩
  · intro v hmem
    obtain ⟨rid, hv⟩ := (mem_listRecords h).mp hmem
    rw [getRecord_conflicted h hv, getRecord_recordId h hv]
  · intro v hmem e hun hrid
    obtain ⟨rid, hv⟩ := (mem_listRecords h).mp hmem
    exact getRecord_unsuperseded h hv hun (hrid.trans (getRecord_recordId h hv))

theorem WellFormedLog.faithful {functions : Functions} {log : IdentityLog} (h : WellFormedLog functions log) :
    Faithful functions log where
  accounts := h.accounts.faithfulKind
  participants := h.participants.faithfulKind
  cards := h.cards.faithfulKind
  confirmed _ _ _ hcontext hperson := confirmedParticipant_not_conflicted h hcontext hperson

theorem sameResults_iff {functions : Functions} (hf : functions.Lawful) {log log' : IdentityLog}
    (h : WellFormedLog functions log) (h' : WellFormedLog functions log') (hsame : SameEvents log log') :
    SameResults functions log log' ↔ Settled functions log log' := by
  have := hf.order
  have hat : SettledAlike functions IdentityEndpointAccount log log' →
      SettledAlike functions IdentityParticipant log log' → SettledAlike functions IdentityRelationCard log log' →
      ∀ item, conflictAt functions log item = conflictAt functions log' item := by
    intro haccounts hparticipants hcards item
    unfold conflictAt conflictOf
    rw [getRecord_eq_of_settledAlike h.accounts h'.accounts hsame.accounts haccounts.lines,
      getRecord_eq_of_settledAlike h.participants h'.participants hsame.participants hparticipants.lines,
      getRecord_eq_of_settledAlike h.cards h'.cards hsame.cards hcards.lines]
  constructor
  · intro hresults
    have haccounts := (listRecords_eq_iff h.accounts h'.accounts hsame.accounts).mp hresults.accounts
    have hparticipants := (listRecords_eq_iff h.participants h'.participants hsame.participants).mp hresults.participants
    have hcards := (listRecords_eq_iff h.cards h'.cards hsame.cards).mp hresults.cards
    exact ⟨haccounts, hparticipants, hcards, (listIdentityRelationConflicts_eq_iff h h' hsame
      (hat haccounts hparticipants hcards)).mp hresults.conflicts⟩
  · intro hsettled
    exact
      { accounts := (listRecords_eq_iff h.accounts h'.accounts hsame.accounts).mpr hsettled.accounts
        participants := (listRecords_eq_iff h.participants h'.participants hsame.participants).mpr hsettled.participants
        cards := (listRecords_eq_iff h.cards h'.cards hsame.cards).mpr hsettled.cards
        conflicts := (listIdentityRelationConflicts_eq_iff h h' hsame
          (hat hsettled.accounts hsettled.participants hsettled.cards)).mpr hsettled.conflicts
        contexts := resolveIdentityRelationContext_congr h h' hsame hsettled.cards.ties }

/-- Every copy says what its set of events says; two copies with the same set say the same exactly when no head
of a conflicted record has more lines in one of them, and what compares as equal comes in one order. -/
theorem identity_logs_converge (functions : Functions) (hf : functions.Lawful) (s : Copies)
    (hreach : (copies functions).Reach Copies.initial s) :
    (∀ log ∈ s.logs, Faithful functions log) ∧
      ∀ log ∈ s.logs, ∀ log' ∈ s.logs, (∀ l, l ∈ log ↔ l ∈ log') →
        (SameResults functions log log' ↔ Settled functions log log') := by
  have hheld := hreach.invariant held_initial fun event s a s' h _ hstep ↦ step_held h hstep
  have hlog : ∀ log ∈ s.logs, WellFormedLog functions log := fun log hlog ↦
    hheld.written.wellFormedLog hf (hheld.lines log hlog)
  exact ⟨fun log hmem ↦ (hlog log hmem).faithful, fun log hmem log' hmem' hsame ↦
    sameResults_iff hf (hlog log hmem) (hlog log' hmem') (.of_mem_iff hsame)⟩

/-! ## Two branches -/

section Branches

/-- Texts compared by their code units; no number and no digest is asked for. -/
def unitFunctions : Functions where
  sha256 _ := List.replicate 32 48
  localeCompare := List.compareLex compare
  unitNumber _ := none

theorem eq_of_localeCompare {a b : JsString} (h : unitFunctions.localeCompare a b = .eq) : a = b := by
  have h' : List.compareLex compare a b = .eq := h
  exact Std.LawfulEqCmp.eq_of_compare h'

theorem lawful_unitFunctions : unitFunctions.Lawful :=
  ⟨inferInstanceAs (Std.TransCmp (List.compareLex compare)), fun _ _ _ _ h => eq_of_localeCompare h⟩

/-- The draws of an update whose UUIDs end with the digit. -/
def drawn (digit : UInt16) : Fresh :=
  ⟨js "2026-01-01T00:00:00.000Z", List.replicate 35 48 ++ [digit], List.replicate 35 48 ++ [digit]⟩

def named (name : String) : IdentityRelationPatch :=
  { kind := some .participant, participantId := some (.text (js "cotton")), displayName := some (.text (js name)) }

/-- A person is named anew on two copies; three more copies take the lines of both. -/
def branches : List CopyEvent :=
  [.update 0 (drawn 49) (named "C"), .gather [(0, 0)], .update 0 (drawn 50) (named "A"),
    .update 1 (drawn 51) (named "B"), .gather [(0, 0), (0, 1), (1, 1)], .gather [(1, 1), (0, 1), (0, 0)],
    .gather [(0, 0), (0, 1), (0, 1), (1, 1)]]

/-- The names of the kinds start with different letters. -/
theorem label_injective {a b : RecordKind × JsString} (h : a.1.name ++ 58 :: a.2 = b.1.name ++ 58 :: b.2) : a = b := by
  have hkind : ∀ k k' : RecordKind, k.name.head? = k'.name.head? → k = k' := by
    intro k k'
    cases k <;> cases k' <;> decide
  have hname : ∀ k : RecordKind, k.name ≠ [] := by
    intro k
    cases k <;> decide
  have hhead := congrArg List.head? h
  rw [List.head?_append_of_ne_nil _ (hname a.1), List.head?_append_of_ne_nil _ (hname b.1)] at hhead
  have hsame := hkind _ _ hhead
  rw [hsame] at h
  exact Prod.ext hsame (List.cons.inj (List.append_cancel_left h)).2

theorem settledAlike_of_perm {T : Type} [IdentityRecord T] [DecidableEq T] {log log' : IdentityLog}
    (h : log.Perm log') : SettledAlike unitFunctions T log log' :=
  ⟨fun _ _ _ => (h.filterMap _).count_eq _, fun _ _ hne htie => absurd (eq_of_localeCompare htie) hne⟩

/-- The conflict of the two branches is the same when their lines are turned round. -/
theorem identity_logs_converge_branches :
    ∃ s, (copies unitFunctions).Reach Copies.initial s ∧ ∃ log ∈ s.logs, ∃ log' ∈ s.logs,
      listIdentityRelationConflicts unitFunctions log ≠ [] ∧ log ≠ log' ∧ SameResults unitFunctions log log' := by
  have hrun : ((copies unitFunctions).run Copies.initial branches).any (fun s ↦ decide
      (∃ log ∈ s.logs, ∃ log' ∈ s.logs, (listIdentityRelationConflicts unitFunctions log ≠ [] ∧ log ≠ log') ∧
        log.Perm log')) = true := by
    decide +kernel
  obtain ⟨s, hs, hlogs⟩ := (Option.any_eq_true _ _).mp hrun
  obtain ⟨log, hlog, log', hlog', ⟨hconflict, hne⟩, hperm⟩ := of_decide_eq_true hlogs
  refine ⟨s, run_reach hs, log, hlog, log', hlog', hconflict, hne, ?_⟩
  refine ((identity_logs_converge unitFunctions lawful_unitFunctions s (run_reach hs)).2 log hlog log' hlog'
    fun l ↦ hperm.mem_iff).mpr ⟨settledAlike_of_perm hperm, settledAlike_of_perm hperm, settledAlike_of_perm hperm,
      fun a b hne htie ↦ absurd (label_injective (eq_of_localeCompare htie)) hne⟩

/-- Two copies with the same events, one of which has a line of a branch twice, list another conflict. -/
theorem repeated_head :
    ∃ s, (copies unitFunctions).Reach Copies.initial s ∧ ∃ log ∈ s.logs, ∃ log' ∈ s.logs,
      (∀ l, l ∈ log ↔ l ∈ log') ∧
        listIdentityRelationConflicts unitFunctions log ≠ listIdentityRelationConflicts unitFunctions log' := by
  have hrun : ((copies unitFunctions).run Copies.initial branches).any (fun s ↦ decide
      (∃ log ∈ s.logs, ∃ log' ∈ s.logs, ((∀ l ∈ log, l ∈ log') ∧ ∀ l ∈ log', l ∈ log) ∧
        listIdentityRelationConflicts unitFunctions log ≠ listIdentityRelationConflicts unitFunctions log')) = true := by
    decide +kernel
  obtain ⟨s, hs, hlogs⟩ := (Option.any_eq_true _ _).mp hrun
  obtain ⟨log, hlog, log', hlog', ⟨hforth, hback⟩, hne⟩ := of_decide_eq_true hlogs
  exact ⟨s, run_reach hs, log, hlog, log', hlog', fun l ↦ ⟨hforth l, hback l⟩, hne⟩

end Branches

end RabiRoute.IdentityRelations
