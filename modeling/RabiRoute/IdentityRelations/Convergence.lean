import RabiRoute.IdentityRelations.Views

/-!
# Two logs with the same events

What the lists, the conflicts and the contexts of two logs have in common when the logs hold the same events.
-/

open Collections

namespace RabiRoute.IdentityRelations

open IdentityRecord

section Kind

variable {T : Type} [IdentityRecord T] [DecidableEq T] {functions : Functions}
  {events events' : List (IdentityRelationEvent T)} {rid : JsString}

theorem WellFormed.mem_heads (h : WellFormed functions events) {e : IdentityRelationEvent T} :
    e ∈ headsOf (groupOf events rid) ↔ Unsuperseded events e ∧ recordId e.record = rid := by
  rw [h.headsOf_groupOf, List.mem_filter, decide_eq_true_eq, mem_groupOf]
  exact ⟨fun ⟨⟨_, hrid⟩, hun⟩ => ⟨hun, hrid⟩, fun ⟨hun, hrid⟩ => ⟨⟨hun.1, hrid⟩, hun⟩⟩

theorem WellFormed.differ_heads (h : WellFormed functions events) :
    Differ (headsOf (groupOf events rid)) ↔ Conflicted events rid := by
  unfold Differ Conflicted
  constructor
  · rintro ⟨e, he, e', he', hne⟩
    obtain ⟨hun, hrid⟩ := h.mem_heads.mp he
    obtain ⟨hun', hrid'⟩ := h.mem_heads.mp he'
    exact ⟨e, hun.1, e', hun'.1, hun, hun', hrid, hrid', hne⟩
  · rintro ⟨e, -, e', -, hun, hun', hrid, hrid', hne⟩
    exact ⟨e, h.mem_heads.mpr ⟨hun, hrid⟩, e', h.mem_heads.mpr ⟨hun', hrid'⟩, hne⟩

omit [IdentityRecord T] [DecidableEq T] in
theorem unsuperseded_congr (hsame : ∀ e, e ∈ events ↔ e ∈ events') {e : IdentityRelationEvent T} :
    Unsuperseded events e ↔ Unsuperseded events' e := by
  unfold Unsuperseded
  simp only [hsame]

omit [DecidableEq T] in
theorem conflicted_congr (hsame : ∀ e, e ∈ events ↔ e ∈ events') : Conflicted events rid ↔ Conflicted events' rid := by
  unfold Conflicted
  simp only [hsame, unsuperseded_congr hsame]

omit [DecidableEq T] in
theorem mem_recordIds_iff : rid ∈ recordIds events ↔ ∃ e ∈ events, recordId e.record = rid := by
  unfold recordIds
  rw [mem_distinct, List.mem_map]

omit [DecidableEq T] in
theorem perm_recordIds (hsame : ∀ e, e ∈ events ↔ e ∈ events') : (recordIds events).Perm (recordIds events') :=
  (List.perm_ext_iff_of_nodup (nodup_distinct _) (nodup_distinct _)).mpr fun _ =>
    mem_recordIds_iff.trans ((exists_congr fun e => and_congr_left' (hsame e)).trans mem_recordIds_iff.symm)

theorem WellFormed.heads_ne_nil (h : WellFormed functions events) (hrid : rid ∈ recordIds events) :
    headsOf (groupOf events rid) ≠ [] := by
  obtain ⟨e, he, hun⟩ := h.exists_unsuperseded (mem_recordIds.mp hrid)
  exact List.ne_nil_of_mem (h.mem_heads.mpr ⟨hun, (mem_groupOf.mp he).2⟩)

/-- The heads of a record have as many lines in both logs. -/
theorem WellFormed.perm_heads (h : WellFormed functions events) (h' : WellFormed functions events')
    (hsame : ∀ e, e ∈ events ↔ e ∈ events') :
    (headsOf (groupOf events rid)).Perm (headsOf (groupOf events' rid)) ↔
      ∀ e, Unsuperseded events e → recordId e.record = rid → events.count e = events'.count e := by
  have hcount : ∀ {events : List (IdentityRelationEvent T)}, WellFormed functions events →
      ∀ e, (headsOf (groupOf events rid)).count e =
        if Unsuperseded events e ∧ recordId e.record = rid then events.count e else 0 := by
    intro events h e
    split
    · next hhead =>
        rw [h.headsOf_groupOf, List.count_filter (by simpa using hhead.1)]
        exact List.count_filter (by simpa using hhead.2)
    · next hhead => exact List.count_eq_zero.mpr fun hmem => hhead (h.mem_heads.mp hmem)
  rw [List.perm_iff_count]
  constructor
  · intro hperm e hun hrid
    have heq := hperm e
    rwa [hcount h, hcount h', if_pos ⟨hun, hrid⟩, if_pos ⟨(unsuperseded_congr hsame).mp hun, hrid⟩] at heq
  · intro hlines e
    rw [hcount h, hcount h']
    by_cases hhead : Unsuperseded events e ∧ recordId e.record = rid
    · rw [if_pos hhead, if_pos ⟨(unsuperseded_congr hsame).mp hhead.1, hhead.2⟩, hlines e hhead.1 hhead.2]
    · rw [if_neg hhead, if_neg fun h => hhead ⟨(unsuperseded_congr hsame).mpr h.1, h.2⟩]

/-! ## The view of one record -/

variable {log log' : IdentityLog} {v v' : Viewed T}

theorem getRecord_eq (functions : Functions) (log : IdentityLog) (rid : JsString) :
    getRecord functions T log rid = collapseRecordState functions (headsOf (groupOf (eventsOf T log) rid)) := by
  unfold getRecord
  rw [getState_eq]
  unfold recordState
  rw [Option.map_map]
  exact Option.map_id'

theorem getRecord_isSome (h : WellFormed functions (eventsOf T log)) (hrid : rid ∈ recordIds (eventsOf T log)) :
    ∃ v, getRecord functions T log rid = some v := by
  rw [getRecord_eq]
  exact collapse_isSome (h.heads_ne_nil hrid)

theorem mem_recordIds_of_getRecord (hv : getRecord functions T log rid = some v) : rid ∈ recordIds (eventsOf T log) := by
  refine mem_recordIds.mpr fun hnil => ?_
  rw [getRecord_eq, hnil] at hv
  cases hv

theorem getRecord_conflicted (h : WellFormed functions (eventsOf T log)) (hv : getRecord functions T log rid = some v) :
    v.conflicted = true ↔ Conflicted (eventsOf T log) rid := by
  rw [getRecord_eq] at hv
  rw [collapse_conflicted hv, h.differ_heads]

variable [LawfulIdentityRecord T]

theorem getRecord_recordId (h : WellFormed functions (eventsOf T log)) (hv : getRecord functions T log rid = some v) :
    recordId v.record = rid := by
  rw [getRecord_eq] at hv
  obtain ⟨e, he, hid, -⟩ := collapse_head hv
  exact hid.trans (h.mem_heads.mp he).2

/-- No event that is not superseded is ignored: it is a candidate of the conflict, or the view has its content. -/
theorem getRecord_unsuperseded (h : WellFormed functions (eventsOf T log))
    (hv : getRecord functions T log rid = some v) {e : IdentityRelationEvent T}
    (hun : Unsuperseded (eventsOf T log) e) (hrid : recordId e.record = rid) :
    (∀ c, v.conflict = some c → e.id ∈ c.conflictEventIds ∧ (e.id, e.record) ∈ c.conflictCandidates) ∧
      (v.conflict = none → conflictComparable v.record = conflictComparable e.record) := by
  have hhead := h.mem_heads.mpr ⟨hun, hrid⟩
  rw [getRecord_eq] at hv
  constructor
  · intro c hc
    obtain ⟨hids, hcandidates⟩ := collapse_conflict hv hc
    rw [hids, hcandidates]
    exact ⟨List.mem_map.mpr ⟨e, mem_sortBy.mpr hhead, rfl⟩, List.mem_map.mpr ⟨e, mem_sortBy.mpr hhead, rfl⟩⟩
  · intro hnone
    have hd : ¬Differ (headsOf (groupOf (eventsOf T log) rid)) := by
      rw [← collapse_conflicted hv, Viewed.conflicted, hnone]
      exact Bool.false_ne_true
    obtain ⟨e', he', -, hcomparable⟩ := collapse_head hv
    exact hcomparable.trans (conflictComparable_of_not_differ hd he' hhead)

variable [Std.TransCmp functions.localeCompare]

theorem getRecord_congr (h : WellFormed functions (eventsOf T log)) (h' : WellFormed functions (eventsOf T log'))
    (hsame : ∀ e, e ∈ eventsOf T log ↔ e ∈ eventsOf T log') (hv : getRecord functions T log rid = some v)
    (hv' : getRecord functions T log' rid = some v') :
    v.record = v'.record ∧ v.conflicted = v'.conflicted ∧
      (v = v' ↔ (Conflicted (eventsOf T log) rid → ∀ e, Unsuperseded (eventsOf T log) e → recordId e.record = rid →
        (eventsOf T log).count e = (eventsOf T log').count e)) := by
  have hmem : ∀ e, e ∈ headsOf (groupOf (eventsOf T log) rid) ↔ e ∈ headsOf (groupOf (eventsOf T log') rid) := by
    intro e
    rw [h.mem_heads, h'.mem_heads, unsuperseded_congr hsame]
  have htold : ∀ e ∈ headsOf (groupOf (eventsOf T log) rid), ∀ e' ∈ headsOf (groupOf (eventsOf T log) rid),
      functions.localeCompare e.id e'.id = .eq → e = e' := fun e he e' he' =>
    h.told e (h.mem_heads.mp he).1.1 e' (h.mem_heads.mp he').1.1
  have hconflicted : v.conflicted = v'.conflicted := by
    rw [Bool.eq_iff_iff, getRecord_conflicted h hv, getRecord_conflicted h' hv', conflicted_congr hsame]
  rw [getRecord_eq] at hv hv'
  refine ⟨(collapse_congr hmem htold hv hv').1, hconflicted, ?_⟩
  rw [collapse_eq_iff hmem htold hv hv', h.differ_heads, h.perm_heads h' hsame]

/-! ## The list of one kind -/

omit [Std.TransCmp functions.localeCompare] in
theorem listRecords_eq (h : WellFormed functions (eventsOf T log)) : listRecords functions T log =
    (sortBy functions.localeCompare (recordIds (eventsOf T log))).filterMap (getRecord functions T log) := by
  unfold listRecords
  rw [records_eq]
  refine sortBy_filterMap (fun rid hrid => getRecord_isSome h hrid) fun a _ b _ v v' hv hv' => ?_
  unfold compareRecords
  rw [getRecord_recordId h hv, getRecord_recordId h hv']

omit [Std.TransCmp functions.localeCompare] in
theorem mem_listRecords (h : WellFormed functions (eventsOf T log)) :
    v ∈ listRecords functions T log ↔ ∃ rid, getRecord functions T log rid = some v := by
  rw [listRecords_eq h, List.mem_filterMap]
  exact ⟨fun ⟨rid, _, hv⟩ => ⟨rid, hv⟩, fun ⟨rid, hv⟩ => ⟨rid, mem_sortBy.mpr (mem_recordIds_of_getRecord hv), hv⟩⟩

/-- What one kind of record has to agree on, beyond the set of its events. -/
structure SettledAlike (functions : Functions) (T : Type) [IdentityRecord T] [DecidableEq T] (log log' : IdentityLog) :
    Prop where
  /-- The heads of a conflicted record have as many lines in both logs. -/
  lines : ∀ e, Unsuperseded (eventsOf T log) e → Conflicted (eventsOf T log) (recordId e.record) →
    (eventsOf T log).count e = (eventsOf T log').count e
  /-- Records whose ids compare as equal come in the same order. -/
  ties : TiesAgree functions.localeCompare (recordIds (eventsOf T log)) (recordIds (eventsOf T log'))

theorem getRecord_eq_of_settledAlike (h : WellFormed functions (eventsOf T log))
    (h' : WellFormed functions (eventsOf T log')) (hsame : ∀ e, e ∈ eventsOf T log ↔ e ∈ eventsOf T log')
    (hlines : ∀ e, Unsuperseded (eventsOf T log) e → Conflicted (eventsOf T log) (recordId e.record) →
      (eventsOf T log).count e = (eventsOf T log').count e) (rid : JsString) :
    getRecord functions T log rid = getRecord functions T log' rid := by
  by_cases hrid : rid ∈ recordIds (eventsOf T log)
  · obtain ⟨v, hv⟩ := getRecord_isSome h hrid
    obtain ⟨v', hv'⟩ := getRecord_isSome h' ((perm_recordIds hsame).mem_iff.mp hrid)
    have heq : v = v' := (getRecord_congr h h' hsame hv hv').2.2.mpr fun hconflicted e hun he =>
      hlines e hun (he ▸ hconflicted)
    rw [hv, hv', heq]
  · have hrid' : rid ∉ recordIds (eventsOf T log') := fun hmem => hrid ((perm_recordIds hsame).mem_iff.mpr hmem)
    cases hv : getRecord functions T log rid with
    | some v => exact absurd (mem_recordIds_of_getRecord hv) hrid
    | none =>
      cases hv' : getRecord functions T log' rid with
      | some v => exact absurd (mem_recordIds_of_getRecord hv') hrid'
      | none => rfl

theorem listRecords_eq_iff (h : WellFormed functions (eventsOf T log)) (h' : WellFormed functions (eventsOf T log'))
    (hsame : ∀ e, e ∈ eventsOf T log ↔ e ∈ eventsOf T log') :
    listRecords functions T log = listRecords functions T log' ↔ SettledAlike functions T log log' := by
  have hperm := perm_recordIds hsame
  have hnodup : (recordIds (eventsOf T log)).Nodup := nodup_distinct _
  have hids : ∀ {log : IdentityLog}, WellFormed functions (eventsOf T log) →
      (listRecords functions T log).map (fun v => recordId v.record) =
        sortBy functions.localeCompare (recordIds (eventsOf T log)) := by
    intro log h
    rw [listRecords_eq h, List.map_filterMap]
    refine (List.filterMap_congr fun rid hrid => ?_).trans List.filterMap_some
    obtain ⟨v, hv⟩ := getRecord_isSome h (mem_sortBy.mp hrid)
    rw [hv, Option.map_some, getRecord_recordId h hv]
  constructor
  · intro heq
    refine ⟨fun e hun hconflicted => ?_, (sortBy_eq_iff hperm hnodup).mp ?_⟩
    · have hrid : recordId e.record ∈ recordIds (eventsOf T log) := mem_recordIds_iff.mpr ⟨e, hun.1, rfl⟩
      obtain ⟨v, hv⟩ := getRecord_isSome h hrid
      obtain ⟨rid, hv'⟩ := (mem_listRecords h').mp (heq ▸ (mem_listRecords h).mpr ⟨_, hv⟩)
      have hsameRid : rid = recordId e.record := (getRecord_recordId h' hv').symm.trans (getRecord_recordId h hv)
      rw [hsameRid] at hv'
      exact (getRecord_congr h h' hsame hv hv').2.2.mp rfl hconflicted e hun rfl
    · rw [← hids h, ← hids h', heq]
  · intro hsettled
    rw [listRecords_eq h, listRecords_eq h', (sortBy_eq_iff hperm hnodup).mpr hsettled.ties]
    exact List.filterMap_congr fun rid _ => getRecord_eq_of_settledAlike h h' hsame hsettled.lines rid

end Kind

/-! ## The conflicts -/

/-- All three kinds of events of a log are well formed. -/
structure WellFormedLog (functions : Functions) (log : IdentityLog) : Prop where
  accounts : WellFormed functions (eventsOf IdentityEndpointAccount log)
  participants : WellFormed functions (eventsOf IdentityParticipant log)
  cards : WellFormed functions (eventsOf IdentityRelationCard log)

/-- The conflicted records of one kind, in the order of their first lines. -/
def conflictedIds (T : Type) [IdentityRecord T] [DecidableEq T] (log : IdentityLog) : List (RecordKind × JsString) :=
  ((recordIds (eventsOf T log)).filter fun rid ↦ decide (Conflicted (eventsOf T log) rid)).map fun rid ↦ (kind T, rid)

def conflictedRecords (log : IdentityLog) : List (RecordKind × JsString) :=
  conflictedIds IdentityEndpointAccount log ++ conflictedIds IdentityParticipant log ++
    conflictedIds IdentityRelationCard log

def compareLabels (functions : Functions) (a b : RecordKind × JsString) : Ordering :=
  functions.localeCompare (a.1.name ++ 58 :: a.2) (b.1.name ++ 58 :: b.2)

def conflictOf (functions : Functions) (T : Type) [IdentityRecord T] [DecidableEq T] (log : IdentityLog)
    (rid : JsString) : Option IdentityRelationConflict :=
  (getRecord functions T log rid).bind fun v ↦
    v.conflict.map fun conflict ↦ ⟨kind T, recordId v.record, conflict.conflictEventIds⟩

def conflictAt (functions : Functions) (log : IdentityLog) (item : RecordKind × JsString) :
    Option IdentityRelationConflict :=
  match item.1 with
  | .endpointAccount => conflictOf functions IdentityEndpointAccount log item.2
  | .participant => conflictOf functions IdentityParticipant log item.2
  | .relationCard => conflictOf functions IdentityRelationCard log item.2

section Conflicts

variable {functions : Functions} {log log' : IdentityLog}

section Kind

variable {T : Type} [IdentityRecord T] [DecidableEq T] [LawfulIdentityRecord T]

theorem conflictOf_eq_some (h : WellFormed functions (eventsOf T log)) {rid : JsString}
    {c : IdentityRelationConflict} (hc : conflictOf functions T log rid = some c) :
    Conflicted (eventsOf T log) rid ∧ c.recordKind = kind T ∧ c.recordId = rid := by
  obtain ⟨v, hv, hconflict⟩ := Option.bind_eq_some_iff.mp hc
  obtain ⟨conflict, hsome, rfl⟩ := Option.map_eq_some_iff.mp hconflict
  refine ⟨(getRecord_conflicted h hv).mp ?_, rfl, getRecord_recordId h hv⟩
  rw [Viewed.conflicted, hsome]
  rfl

omit [LawfulIdentityRecord T] in
theorem conflictOf_isSome (h : WellFormed functions (eventsOf T log)) {rid : JsString} (hrid : rid ∈ recordIds (eventsOf
    T log)) (hconflicted : Conflicted (eventsOf T log) rid) : ∃ c, conflictOf functions T log rid = some c := by
  obtain ⟨v, hv⟩ := getRecord_isSome h hrid
  obtain ⟨conflict, hsome⟩ := Option.isSome_iff_exists.mp ((getRecord_conflicted h hv).mpr hconflicted)
  unfold conflictOf
  rw [hv, Option.bind_some, hsome]
  exact ⟨_, rfl⟩

theorem collectConflicts_eq (h : WellFormed functions (eventsOf T log))
    (hat : ∀ rid, conflictAt functions log (kind T, rid) = conflictOf functions T log rid) :
    collectConflicts functions T log = (conflictedIds T log).filterMap (conflictAt functions log) := by
  have hcollect : collectConflicts functions T log =
      (recordIds (eventsOf T log)).filterMap (conflictOf functions T log) := by
    unfold collectConflicts
    rw [recordStates_eq, List.filterMap_filterMap]
    refine List.filterMap_congr fun rid _ => ?_
    unfold conflictOf getRecord
    rw [Option.bind_map]
    rfl
  unfold conflictedIds
  rw [hcollect, List.filterMap_map, List.filterMap_filter]
  refine List.filterMap_congr fun rid _ => ?_
  rw [Function.comp_apply, hat]
  split
  · rfl
  · next hnot =>
      cases hc : conflictOf functions T log rid with
      | none => rfl
      | some c => exact absurd (decide_eq_true (conflictOf_eq_some h hc).1) hnot

theorem conflictAt_of_mem (h : WellFormed functions (eventsOf T log)) (hat : ∀ rid, conflictAt functions log (kind T,
    rid) = conflictOf functions T log rid) {item : RecordKind × JsString} (hitem : item ∈ conflictedIds T log) : ∃ c,
    conflictAt functions log item = some c ∧ (c.recordKind, c.recordId) = item := by
  obtain ⟨rid, hrid, rfl⟩ := List.mem_map.mp hitem
  obtain ⟨hmem, hconflicted⟩ := List.mem_filter.mp hrid
  obtain ⟨c, hc⟩ := conflictOf_isSome h hmem (of_decide_eq_true hconflicted)
  obtain ⟨-, hkind, hid⟩ := conflictOf_eq_some h hc
  exact ⟨c, (hat rid).trans hc, by rw [hkind, hid]⟩

omit [LawfulIdentityRecord T] in
theorem perm_conflictedIds (hsame : ∀ e, e ∈ eventsOf T log ↔ e ∈ eventsOf T log') :
    (conflictedIds T log).Perm (conflictedIds T log') := by
  have hcongr : (recordIds (eventsOf T log')).filter (fun rid => decide (Conflicted (eventsOf T log) rid)) =
      (recordIds (eventsOf T log')).filter fun rid => decide (Conflicted (eventsOf T log') rid) :=
    List.filter_congr fun rid _ => decide_eq_decide.mpr (conflicted_congr hsame)
  unfold conflictedIds
  rw [← hcongr]
  exact ((perm_recordIds hsame).filter _).map _

omit [LawfulIdentityRecord T] in
theorem nodup_conflictedIds : (conflictedIds T log).Nodup :=
  ((nodup_distinct _).filter _).map fun _ _ h => (Prod.mk.inj h).2

end Kind

theorem conflictAt_of_mem_records (h : WellFormedLog functions log) {item : RecordKind × JsString} (hitem : item ∈
    conflictedRecords log) : ∃ c, conflictAt functions log item = some c ∧ (c.recordKind, c.recordId) = item := by
  rcases List.mem_append.mp hitem with hitem | hitem
  · rcases List.mem_append.mp hitem with hitem | hitem
    · exact conflictAt_of_mem h.accounts (fun _ => rfl) hitem
    · exact conflictAt_of_mem h.participants (fun _ => rfl) hitem
  · exact conflictAt_of_mem h.cards (fun _ => rfl) hitem

theorem nodup_conflictedRecords : (conflictedRecords log).Nodup := by
  have hkind : ∀ {T : Type} [IdentityRecord T] [DecidableEq T] {item : RecordKind × JsString},
      item ∈ conflictedIds T log → item.1 = kind T := by
    intro T _ _ item hitem
    obtain ⟨rid, -, rfl⟩ := List.mem_map.mp hitem
    rfl
  refine (nodup_conflictedIds.append nodup_conflictedIds ?_).append nodup_conflictedIds ?_
  · intro item ha hb
    cases (hkind ha).symm.trans (hkind hb)
  · intro item ha hb
    rcases List.mem_append.mp ha with ha | ha
    · cases (hkind ha).symm.trans (hkind hb)
    · cases (hkind ha).symm.trans (hkind hb)

theorem listIdentityRelationConflicts_eq (h : WellFormedLog functions log) :
    listIdentityRelationConflicts functions log =
      (sortBy (compareLabels functions) (conflictedRecords log)).filterMap (conflictAt functions log) := by
  unfold listIdentityRelationConflicts
  rw [collectConflicts_eq h.accounts fun _ => rfl, collectConflicts_eq h.participants fun _ => rfl,
    collectConflicts_eq h.cards fun _ => rfl, ← List.filterMap_append, ← List.filterMap_append]
  refine sortBy_filterMap (fun item hitem => ?_) fun a ha b hb c c' hc hc' => ?_
  · obtain ⟨c, hc, -⟩ := conflictAt_of_mem_records h hitem
    exact ⟨c, hc⟩
  · obtain ⟨d, hd, hda⟩ := conflictAt_of_mem_records h ha
    obtain ⟨d', hd', hdb⟩ := conflictAt_of_mem_records h hb
    cases hd.symm.trans hc
    cases hd'.symm.trans hc'
    unfold compareLabels
    rw [← hda, ← hdb]
    rfl

/-- The same events of every kind. -/
structure SameEvents (log log' : IdentityLog) : Prop where
  accounts : ∀ e, e ∈ eventsOf IdentityEndpointAccount log ↔ e ∈ eventsOf IdentityEndpointAccount log'
  participants : ∀ e, e ∈ eventsOf IdentityParticipant log ↔ e ∈ eventsOf IdentityParticipant log'
  cards : ∀ e, e ∈ eventsOf IdentityRelationCard log ↔ e ∈ eventsOf IdentityRelationCard log'

theorem SameEvents.of_mem_iff (h : ∀ l, l ∈ log ↔ l ∈ log') : SameEvents log log' := by
  constructor <;> (intro e; simp only [eventsOf, List.mem_filterMap, h])

variable [Std.TransCmp functions.localeCompare]

instance : Std.TransCmp (compareLabels functions) :=
  transCmp_on functions.localeCompare fun item : RecordKind × JsString ↦ item.1.name ++ 58 :: item.2

theorem listIdentityRelationConflicts_eq_iff (h : WellFormedLog functions log) (h' : WellFormedLog functions log')
    (hsame : SameEvents log log') (hat : ∀ item, conflictAt functions log item = conflictAt functions log' item) :
    listIdentityRelationConflicts functions log = listIdentityRelationConflicts functions log' ↔
      TiesAgree (compareLabels functions) (conflictedRecords log) (conflictedRecords log') := by
  have hperm : (conflictedRecords log).Perm (conflictedRecords log') :=
    ((perm_conflictedIds hsame.accounts).append (perm_conflictedIds hsame.participants)).append
      (perm_conflictedIds hsame.cards)
  have hlabels : ∀ {log : IdentityLog}, WellFormedLog functions log →
      (listIdentityRelationConflicts functions log).map (fun c => (c.recordKind, c.recordId)) =
        sortBy (compareLabels functions) (conflictedRecords log) := by
    intro log h
    rw [listIdentityRelationConflicts_eq h, List.map_filterMap]
    refine (List.filterMap_congr fun item hitem => ?_).trans List.filterMap_some
    obtain ⟨c, hc, heq⟩ := conflictAt_of_mem_records h (mem_sortBy.mp hitem)
    rw [hc, Option.map_some, heq]
  rw [← sortBy_eq_iff hperm nodup_conflictedRecords]
  constructor
  · intro heq
    rw [← hlabels h, ← hlabels h', heq]
  · intro heq
    rw [listIdentityRelationConflicts_eq h, listIdentityRelationConflicts_eq h', heq]
    exact List.filterMap_congr fun item _ => hat item

end Conflicts

/-! ## The context of an account -/

section Contexts

variable {functions : Functions} {log log' : IdentityLog} [Std.TransCmp functions.localeCompare]

section Kind

variable {T : Type} [IdentityRecord T] [DecidableEq T] [LawfulIdentityRecord T]

/-- Both logs have a view of the record, with the same record and the same flag, or none has. -/
theorem getRecord_cases (h : WellFormed functions (eventsOf T log)) (h' : WellFormed functions (eventsOf T log'))
    (hsame : ∀ e, e ∈ eventsOf T log ↔ e ∈ eventsOf T log') (rid : JsString) :
    (getRecord functions T log rid = none ∧ getRecord functions T log' rid = none) ∨
      ∃ v v', getRecord functions T log rid = some v ∧ getRecord functions T log' rid = some v' ∧
        v.record = v'.record ∧ v.conflicted = v'.conflicted ∧ (v.conflicted = false → v = v') := by
  by_cases hrid : rid ∈ recordIds (eventsOf T log)
  · obtain ⟨v, hv⟩ := getRecord_isSome h hrid
    obtain ⟨v', hv'⟩ := getRecord_isSome h' ((perm_recordIds hsame).mem_iff.mp hrid)
    obtain ⟨hrecord, hconflicted, hiff⟩ := getRecord_congr h h' hsame hv hv'
    refine .inr ⟨v, v', hv, hv', hrecord, hconflicted, fun hnot => hiff.mpr fun hc => ?_⟩
    rw [(getRecord_conflicted h hv).mpr hc] at hnot
    cases hnot
  · have hrid' : rid ∉ recordIds (eventsOf T log') := fun hmem => hrid ((perm_recordIds hsame).mem_iff.mpr hmem)
    have hnone : ∀ {log : IdentityLog}, rid ∉ recordIds (eventsOf T log) → getRecord functions T log rid = none :=
      fun hnot => Option.eq_none_iff_forall_not_mem.mpr fun v hv => hnot (mem_recordIds_of_getRecord hv)
    exact .inl ⟨hnone hrid, hnone hrid'⟩

/-- What is not conflicted is the same in both views. -/
theorem getRecord_filter_congr (h : WellFormed functions (eventsOf T log)) (h' : WellFormed functions (eventsOf T log'))
    (hsame : ∀ e, e ∈ eventsOf T log ↔ e ∈ eventsOf T log') {p : Viewed T → Bool} (hp : ∀ v, p v = true → v.conflicted =
    false) (rid : JsString) : (getRecord functions T log rid).filter p = (getRecord functions T log' rid).filter p := by
  rcases getRecord_cases h h' hsame rid with ⟨hv, hv'⟩ | ⟨v, v', hv, hv', -, hconflicted, heq⟩
  · rw [hv, hv']
  · rw [hv, hv']
    cases hc : v.conflicted with
    | false => rw [heq hc]
    | true =>
      have hnot : ∀ w : Viewed T, w.conflicted = true → (some w).filter p = none := by
        intro w hw
        refine Option.filter_eq_none_iff.mpr fun a ha hpa => ?_
        cases ha
        rw [hp w hpa] at hw
        cases hw
      rw [hnot v hc, hnot v' (hconflicted ▸ hc)]

/-- The records that are not conflicted are sorted alike, where ties come in the same order. -/
theorem sortBy_filter_congr (h : WellFormed functions (eventsOf T log)) (h' : WellFormed functions (eventsOf T log'))
    (hsame : ∀ e, e ∈ eventsOf T log ↔ e ∈ eventsOf T log')
    (hties : TiesAgree functions.localeCompare (recordIds (eventsOf T log)) (recordIds (eventsOf T log')))
    {p : Viewed T → Bool} (hp : ∀ v, p v = true → v.conflicted = false) :
    sortBy (compareRecords functions) (((recordIds (eventsOf T log)).filterMap (getRecord functions T log)).filter p) =
      sortBy (compareRecords functions)
        (((recordIds (eventsOf T log')).filterMap (getRecord functions T log')).filter p) := by
  have hpick : ∀ {log : IdentityLog}, WellFormed functions (eventsOf T log) →
      sortBy (compareRecords functions) (((recordIds (eventsOf T log)).filterMap (getRecord functions T log)).filter p) =
        (sortBy functions.localeCompare ((recordIds (eventsOf T log)).filter fun rid =>
          ((getRecord functions T log rid).filter p).isSome)).filterMap
            fun rid => (getRecord functions T log rid).filter p := by
    intro log h
    have hfilter : ((recordIds (eventsOf T log)).filterMap (getRecord functions T log)).filter p =
        ((recordIds (eventsOf T log)).filter fun rid => ((getRecord functions T log rid).filter p).isSome).filterMap
          fun rid => (getRecord functions T log rid).filter p := by
      rw [List.filter_filterMap, List.filterMap_filter]
      refine List.filterMap_congr fun rid _ => ?_
      cases (getRecord functions T log rid).filter p with
      | none => rfl
      | some v => rfl
    rw [hfilter]
    refine sortBy_filterMap (fun rid hrid => Option.isSome_iff_exists.mp (List.mem_filter.mp hrid).2)
      fun a _ b _ v v' hv hv' => ?_
    unfold compareRecords
    rw [getRecord_recordId h (Option.filter_eq_some_iff.mp hv).1, getRecord_recordId h (Option.filter_eq_some_iff.mp hv').1]
  have hcongr := getRecord_filter_congr h h' hsame hp
  have hsorted := (sortBy_eq_iff
    ((perm_recordIds hsame).filter fun rid => ((getRecord functions T log rid).filter p).isSome)
    ((nodup_distinct _).filter _)).mpr (hties.filter _)
  rw [hpick h, hpick h', hsorted]
  simp only [hcongr]

end Kind

variable (h : WellFormedLog functions log) (h' : WellFormedLog functions log') (hsame : SameEvents log log')

include h h' hsame

theorem linkedParticipant_congr (link : IdentityParticipantLink) :
    linkedParticipant functions log link = linkedParticipant functions log' link := by
  unfold linkedParticipant
  rw [getRecord_filter_congr h.participants h'.participants hsame.participants fun v hv => ?_]
  unfold usableParticipant at hv
  exact Bool.eq_false_iff.mpr fun hc => by simp [hc] at hv

theorem relevantCards_congr (hties : TiesAgree functions.localeCompare
      (recordIds (eventsOf IdentityRelationCard log)) (recordIds (eventsOf IdentityRelationCard log')))
    (lookup : IdentityEndpointLookup) (ids : List JsString) :
    relevantCards functions log lookup ids = relevantCards functions log' lookup ids := by
  unfold relevantCards
  rw [records_eq, records_eq]
  refine sortBy_filter_congr h.cards h'.cards hsame.cards hties fun v hv => ?_
  exact Bool.eq_false_iff.mpr fun hc => by simp [hc] at hv

theorem accountContext_congr (hties : TiesAgree functions.localeCompare
      (recordIds (eventsOf IdentityRelationCard log)) (recordIds (eventsOf IdentityRelationCard log')))
    (lookup : IdentityEndpointLookup) (platform endpointIdentityNamespace senderStableId : JsString) :
    accountContext functions log lookup platform endpointIdentityNamespace senderStableId =
      accountContext functions log' lookup platform endpointIdentityNamespace senderStableId := by
  have hlinked : linkedParticipant functions log = linkedParticipant functions log' :=
    funext (linkedParticipant_congr h h' hsame)
  have hcards : relevantCards functions log lookup = relevantCards functions log' lookup :=
    funext (relevantCards_congr h h' hsame hties lookup)
  have hconfirmed : confirmedParticipantOf functions log = confirmedParticipantOf functions log' := by
    funext links
    unfold confirmedParticipantOf
    rw [hlinked]
  have hcandidates : linkedCandidates functions log = linkedCandidates functions log' := by
    funext links
    unfold linkedCandidates
    rw [hlinked]
  unfold accountContext
  rw [hconfirmed, hcandidates, hcards]
  -- of the account only its record and its flag are used
  rcases getRecord_cases h.accounts h'.accounts hsame.accounts
      (endpointAccountId functions platform endpointIdentityNamespace senderStableId) with
    ⟨hv, hv'⟩ | ⟨v, v', hv, hv', hrecord, hconflicted, -⟩
  · rw [hv, hv']
  · have hlinks : activeLinks (some v) = activeLinks (some v') := by
      unfold activeLinks
      dsimp only
      rw [hrecord, hconflicted]
    have hendpoint : contextEndpoint functions lookup (some v) platform endpointIdentityNamespace senderStableId =
        contextEndpoint functions lookup (some v') platform endpointIdentityNamespace senderStableId := by
      unfold contextEndpoint
      dsimp only
      rw [hrecord]
    have hnotes : unresolvedNotes (some v) = unresolvedNotes (some v') := by
      unfold unresolvedNotes
      simp only [Option.any_some, Option.isNone_some, hconflicted]
    rw [hv, hv']
    dsimp only
    rw [hlinks, hendpoint, hnotes]

theorem resolveIdentityRelationContext_congr (hties : TiesAgree functions.localeCompare
      (recordIds (eventsOf IdentityRelationCard log)) (recordIds (eventsOf IdentityRelationCard log')))
    (lookup : IdentityEndpointLookup) :
    resolveIdentityRelationContext functions log lookup = resolveIdentityRelationContext functions log' lookup := by
  unfold resolveIdentityRelationContext
  simp only [accountContext_congr h h' hsame hties]

omit h' hsame [Std.TransCmp functions.localeCompare]

theorem mem_linkedParticipant {link : IdentityParticipantLink} {item : LinkedParticipant} (hitem : linkedParticipant
    functions log link = some item) : ¬Conflicted (eventsOf IdentityParticipant log) item.participant.record.id := by
  obtain ⟨v, hv, rfl⟩ := Option.map_eq_some_iff.mp hitem
  obtain ⟨hget, husable⟩ := Option.filter_eq_some_iff.mp hv
  have hid : v.record.id = link.participantId := getRecord_recordId h.participants hget
  intro hconflicted
  rw [hid, ← getRecord_conflicted h.participants hget] at hconflicted
  unfold usableParticipant at husable
  simp [hconflicted] at husable

/-- A person is confirmed through an account and a participant that are not conflicted. -/
theorem confirmedParticipant_not_conflicted {lookup : IdentityEndpointLookup} {context : IdentityRelationContext}
    {person : Viewed IdentityParticipant}
    (hcontext : resolveIdentityRelationContext functions log lookup = some context)
    (hperson : context.confirmedParticipant = some person) :
    ¬Conflicted (eventsOf IdentityEndpointAccount log) context.endpoint.id ∧
      ¬Conflicted (eventsOf IdentityParticipant log) person.record.id := by
  unfold resolveIdentityRelationContext at hcontext
  split at hcontext
  case h_2 => cases hcontext
  case h_1 platform endpointIdentityNamespace senderStableId _ _ _ =>
    cases hcontext
    cases haccount : getRecord functions IdentityEndpointAccount log
        (endpointAccountId functions platform endpointIdentityNamespace senderStableId) with
    | none =>
      simp only [accountContext, haccount, activeLinks] at hperson
      cases hperson
    | some account =>
      simp only [accountContext, haccount] at hperson ⊢
      constructor
      · intro hconflicted
        have hid : account.record.id = endpointAccountId functions platform endpointIdentityNamespace senderStableId :=
          getRecord_recordId h.accounts haccount
        have hflag : account.conflicted = true := by
          rw [getRecord_conflicted h.accounts haccount, ← hid]
          exact hconflicted
        simp only [activeLinks, hflag, if_true] at hperson
        cases hperson
      · unfold confirmedParticipantOf at hperson
        dsimp only at hperson
        split at hperson
        · next item hitems =>
            split at hperson
            · cases hperson
              have hmem : item ∈ ((activeLinks (some account)).filter (·.status.isAuthoritative)).filterMap
                  (linkedParticipant functions log) :=
                (List.mem_filter.mp (hitems ▸ List.mem_cons_self)).1
              obtain ⟨link, -, hlinked⟩ := List.mem_filterMap.mp hmem
              exact mem_linkedParticipant h hlinked
            · cases hperson
        · cases hperson

end Contexts

end RabiRoute.IdentityRelations
