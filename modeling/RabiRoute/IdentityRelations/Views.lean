import Mathlib.Data.Finset.Max
import RabiRoute.IdentityRelations.Update

/-!
# What a view is made of

The view of a record depends on the events that no other one supersedes, whatever the order and the number of
their lines; only the conflict state counts the lines.
-/

open Collections

namespace RabiRoute.IdentityRelations

open IdentityRecord

namespace LogEvent

def id : LogEvent → JsString
  | endpointAccount event => event.id
  | participant event => event.id
  | relationCard event => event.id

def supersedes : LogEvent → Option (List JsString)
  | endpointAccount event => event.supersedes
  | participant event => event.supersedes
  | relationCard event => event.supersedes

/-- The record that the event is about. -/
def key : LogEvent → RecordKind × JsString
  | endpointAccount event => (.endpointAccount, event.record.id)
  | participant event => (.participant, event.record.id)
  | relationCard event => (.relationCard, event.record.id)

end LogEvent

class LawfulIdentityRecord (T : Type) [IdentityRecord T] [DecidableEq T] : Prop where
  event_eq_some {l : LogEvent} {e : IdentityRelationEvent T} : event l = some e ↔ l = logged e
  id_logged (e : IdentityRelationEvent T) : (logged e).id = e.id
  supersedes_logged (e : IdentityRelationEvent T) : (logged e).supersedes = e.supersedes
  key_logged (e : IdentityRelationEvent T) : (logged e).key = (kind T, recordId e.record)
  recordId_merged (byTime : List T) (r : T) : recordId (merged byTime r) = recordId r
  conflictComparable_merged (byTime : List T) (r : T) :
    conflictComparable (merged byTime r) = conflictComparable r
  merged_squeeze (byTime : List T) (r : T) : merged (squeeze byTime) r = merged byTime r
  nameAppended_squeeze (byTime : List T) (r : T) : nameAppended (squeeze byTime) r = nameAppended byTime r

theorem uniqueEvidenceRefs_squeeze {T : Type} [DecidableEq T] (f : T → List IdentityEvidenceRef) (l : List T) :
    uniqueEvidenceRefs ((squeeze l).flatMap f) = uniqueEvidenceRefs (l.flatMap f) := by
  unfold uniqueEvidenceRefs
  rw [List.filterMap_flatMap, List.filterMap_flatMap, distinct_flatMap_squeeze]

instance : LawfulIdentityRecord IdentityEndpointAccount where
  event_eq_some {l e} := by
    cases l with
    | endpointAccount event => exact ⟨fun h ↦ congrArg _ (Option.some.inj h), fun h ↦ (by cases h; rfl)⟩
    | participant event => exact ⟨fun h ↦ (by cases h), fun h ↦ (by cases h)⟩
    | relationCard event => exact ⟨fun h ↦ (by cases h), fun h ↦ (by cases h)⟩
  id_logged _ := rfl
  supersedes_logged _ := rfl
  key_logged _ := rfl
  recordId_merged _ _ := rfl
  conflictComparable_merged _ _ := rfl
  merged_squeeze byTime r := by
    show ({ r with displayName := _ } : IdentityEndpointAccount) = { r with displayName := _ }
    rw [findSome?_reverse_squeeze]
  nameAppended_squeeze byTime r := by
    show (r.displayName.isNone && Option.isSome _) = (r.displayName.isNone && Option.isSome _)
    rw [findSome?_reverse_squeeze]

instance : LawfulIdentityRecord IdentityParticipant where
  event_eq_some {l e} := by
    cases l with
    | endpointAccount event => exact ⟨fun h ↦ (by cases h), fun h ↦ (by cases h)⟩
    | participant event => exact ⟨fun h ↦ congrArg _ (Option.some.inj h), fun h ↦ (by cases h; rfl)⟩
    | relationCard event => exact ⟨fun h ↦ (by cases h), fun h ↦ (by cases h)⟩
  id_logged _ := rfl
  supersedes_logged _ := rfl
  key_logged _ := rfl
  recordId_merged byTime r := by
    simp only [merged, recordId]
    split <;> rfl
  conflictComparable_merged byTime r := by
    simp only [merged]
    split
    · next h =>
        unfold IdentityParticipant.isObserved at h
        simp only [conflictComparable, IdentityParticipant.isObserved, h, if_true]
    · rfl
  merged_squeeze byTime r := by
    simp only [merged]
    rw [findSome?_reverse_squeeze, distinct_flatMap_squeeze, uniqueEvidenceRefs_squeeze]
  nameAppended_squeeze byTime r := by
    simp only [nameAppended]
    rw [findSome?_reverse_squeeze]

instance : LawfulIdentityRecord IdentityRelationCard where
  event_eq_some {l e} := by
    cases l with
    | endpointAccount event => exact ⟨fun h ↦ (by cases h), fun h ↦ (by cases h)⟩
    | participant event => exact ⟨fun h ↦ (by cases h), fun h ↦ (by cases h)⟩
    | relationCard event => exact ⟨fun h ↦ congrArg _ (Option.some.inj h), fun h ↦ (by cases h; rfl)⟩
  id_logged _ := rfl
  supersedes_logged _ := rfl
  key_logged _ := rfl
  recordId_merged _ _ := rfl
  conflictComparable_merged _ _ := rfl
  merged_squeeze _ _ := rfl
  nameAppended_squeeze _ _ := rfl

section View

variable {T : Type} [IdentityRecord T]

/-! ## Events that supersede others -/

/-- The event replaces the event of that id. -/
def IdentityRelationEvent.replaces (e : IdentityRelationEvent T) (id : JsString) : Bool :=
  e.supersedes.any fun ids ↦ decide (id ∈ ids)

/-- No event of the set supersedes it. -/
def Unsuperseded (events : List (IdentityRelationEvent T)) (e : IdentityRelationEvent T) : Prop :=
  e ∈ events ∧ ∀ e' ∈ events, e'.replaces e.id = false

/-- Two events of the record that no event supersedes differ in what a conflict is about. -/
def Conflicted (events : List (IdentityRelationEvent T)) (rid : JsString) : Prop :=
  ∃ e ∈ events, ∃ e' ∈ events, Unsuperseded events e ∧ Unsuperseded events e' ∧ recordId e.record = rid ∧
    recordId e'.record = rid ∧ conflictComparable e.record ≠ conflictComparable e'.record

/-- What every set of events has that the functions of `identityRelations.ts` write. -/
structure WellFormed (functions : Functions) (events : List (IdentityRelationEvent T)) : Prop where
  unique : ∀ e ∈ events, ∀ e' ∈ events, e.id = e'.id → e = e'
  /-- The ids that an event supersedes are there, and they are no texts that a reader changes. -/
  explicit : ∀ e ∈ events, ∃ ids, e.supersedes = some ids ∧ ∀ id ∈ ids, text 300 (.text id) = some id
  /-- An event supersedes events of its own record only. -/
  own : ∀ e ∈ events, ∀ e' ∈ events, e'.replaces e.id = true → recordId e'.record = recordId e.record
  acyclic : ∃ rank : JsString → Nat, ∀ e ∈ events, ∀ id, e.replaces id = true → rank id < rank e.id
  told : ∀ e ∈ events, ∀ e' ∈ events, functions.localeCompare e.id e'.id = .eq → e = e'

variable {functions : Functions} {events events' : List (IdentityRelationEvent T)}

theorem WellFormed.mem_parents (h : WellFormed functions events) {e : IdentityRelationEvent T} (he : e ∈ events)
    {id : JsString} : id ∈ e.parents.getD [] ↔ e.replaces id = true := by
  obtain ⟨ids, hids, htext⟩ := h.explicit e he
  obtain ⟨rank, hrank⟩ := h.acyclic
  have hparents : e.parents.getD [] = distinct (ids.filterMap fun id => (text 300 (.text id)).filter (· ≠ e.id)) := by
    unfold IdentityRelationEvent.parents
    rw [hids]
    rfl
  have hreplaces : ∀ id, e.replaces id = true ↔ id ∈ ids := by
    intro id
    unfold IdentityRelationEvent.replaces
    rw [hids, Option.any_some, decide_eq_true_eq]
  rw [hparents, mem_distinct, List.mem_filterMap, hreplaces]
  constructor
  · rintro ⟨raw, hraw, hsome⟩
    rw [htext raw hraw] at hsome
    exact (Option.some.inj (Option.filter_eq_some_iff.mp hsome).1) ▸ hraw
  · intro hmem
    refine ⟨id, hmem, ?_⟩
    rw [htext id hmem]
    refine Option.filter_eq_some_iff.mpr ⟨rfl, decide_eq_true fun heq => ?_⟩
    have hlt := hrank e he id ((hreplaces id).mpr hmem)
    rw [heq] at hlt
    exact Nat.lt_irrefl _ hlt

theorem WellFormed.parents_isSome (h : WellFormed functions events) {e : IdentityRelationEvent T} (he : e ∈ events) :
    ∃ ids, e.parents = some ids := by
  obtain ⟨ids, hids, -⟩ := h.explicit e he
  unfold IdentityRelationEvent.parents
  rw [hids]
  exact ⟨_, rfl⟩

/-! ## Heads -/

/-- The events of one record. -/
def groupOf (events : List (IdentityRelationEvent T)) (rid : JsString) : List (IdentityRelationEvent T) :=
  events.filter fun e ↦ decide (recordId e.record = rid)

theorem mem_groupOf {rid : JsString} {e : IdentityRelationEvent T} :
    e ∈ groupOf events rid ↔ e ∈ events ∧ recordId e.record = rid := by
  unfold groupOf
  rw [List.mem_filter, decide_eq_true_eq]

omit [IdentityRecord T] in
/-- Where every event names what it supersedes, the pass over the lines finds nothing else. -/
theorem mem_scan_superseded (explicitSuperseded : List JsString) {group : List (IdentityRelationEvent T)}
    (hparents : ∀ e ∈ group, ∃ ids, e.parents = some ids ∧ ∀ id ∈ ids, id ∈ explicitSuperseded) (scan : HeadScan)
    (hscan : ∀ id, id ∈ scan.superseded ↔ id ∈ explicitSuperseded) (id : JsString) :
    id ∈ (group.foldl (scanEvent explicitSuperseded) scan).superseded ↔ id ∈ explicitSuperseded := by
  induction group generalizing scan with
  | nil => exact hscan id
  | cons e group ih =>
    rw [List.foldl_cons]
    refine ih (fun e he => hparents e (List.mem_cons_of_mem _ he)) _ fun id => ?_
    obtain ⟨ids, hids, hexplicit⟩ := hparents e List.mem_cons_self
    unfold scanEvent
    rw [hids, Option.getD_some]
    dsimp only
    rw [List.mem_append, hscan]
    exact ⟨fun h => h.elim (fun h => h) (hexplicit id), .inl⟩

variable [DecidableEq T]

instance (events : List (IdentityRelationEvent T)) (e : IdentityRelationEvent T) :
    Decidable (Unsuperseded events e) :=
  inferInstanceAs (Decidable (_ ∧ _))

instance (events : List (IdentityRelationEvent T)) (rid : JsString) : Decidable (Conflicted events rid) :=
  inferInstanceAs (Decidable (∃ e ∈ events, ∃ e' ∈ events, _))

/-- The event of the highest rank is superseded by none. -/
theorem WellFormed.exists_unsuperseded (h : WellFormed functions events) {rid : JsString}
    (hne : groupOf events rid ≠ []) : ∃ e ∈ groupOf events rid, Unsuperseded events e := by
  obtain ⟨rank, hrank⟩ := h.acyclic
  obtain ⟨first, hfirst⟩ := List.exists_mem_of_ne_nil _ hne
  obtain ⟨top, htop, hmax⟩ := Finset.exists_max_image (groupOf events rid).toFinset (fun e => rank e.id)
    ⟨first, List.mem_toFinset.mpr hfirst⟩
  have htop := List.mem_toFinset.mp htop
  have hevents := (mem_groupOf.mp htop).1
  refine ⟨top, htop, hevents, fun e he => Bool.eq_false_iff.mpr fun hreplaces => ?_⟩
  have hmem : e ∈ groupOf events rid :=
    mem_groupOf.mpr ⟨he, (h.own top hevents e he hreplaces).trans (mem_groupOf.mp htop).2⟩
  have hle := hmax e (List.mem_toFinset.mpr hmem)
  have hlt := hrank e he top.id hreplaces
  omega

/-- The heads of a record are its events that no event supersedes, line by line. -/
theorem WellFormed.headsOf_groupOf (h : WellFormed functions events) (rid : JsString) :
    headsOf (groupOf events rid) = (groupOf events rid).filter fun e => decide (Unsuperseded events e) := by
  have hgroup : ∀ e ∈ groupOf events rid, e ∈ events := fun e he => (mem_groupOf.mp he).1
  have hexplicit : ∀ id, id ∈ (groupOf events rid).flatMap (fun e => e.parents.getD []) ↔
      ∃ e ∈ groupOf events rid, e.replaces id = true := by
    intro id
    rw [List.mem_flatMap]
    constructor
    · rintro ⟨e, he, hid⟩
      exact ⟨e, he, (h.mem_parents (hgroup e he)).mp hid⟩
    · rintro ⟨e, he, hid⟩
      exact ⟨e, he, (h.mem_parents (hgroup e he)).mpr hid⟩
  have hscan : ∀ id, id ∈ ((groupOf events rid).foldl
      (scanEvent ((groupOf events rid).flatMap fun e => e.parents.getD []))
      ⟨(groupOf events rid).flatMap fun e => e.parents.getD [], []⟩).superseded ↔
      ∃ e ∈ groupOf events rid, e.replaces id = true := by
    intro id
    refine (mem_scan_superseded ((groupOf events rid).flatMap fun e => e.parents.getD []) (fun e he => ?_)
      ⟨_, []⟩ (fun id => Iff.rfl) id).trans (hexplicit id)
    obtain ⟨ids, hids⟩ := h.parents_isSome (hgroup e he)
    refine ⟨ids, hids, fun id hid => List.mem_flatMap.mpr ⟨e, he, ?_⟩⟩
    rw [hids]
    exact hid
  have hfilter : (groupOf events rid).filter (fun e => decide (e.id ∉ ((groupOf events rid).foldl
      (scanEvent ((groupOf events rid).flatMap fun e => e.parents.getD []))
      ⟨(groupOf events rid).flatMap fun e => e.parents.getD [], []⟩).superseded)) =
      (groupOf events rid).filter fun e => decide (Unsuperseded events e) := by
    refine List.filter_congr fun e he => decide_eq_decide.mpr ?_
    rw [hscan]
    constructor
    · intro hnone
      refine ⟨hgroup e he, fun e' he' => Bool.eq_false_iff.mpr fun hreplaces => hnone ⟨e', ?_, hreplaces⟩⟩
      exact mem_groupOf.mpr ⟨he', (h.own e (hgroup e he) e' he' hreplaces).trans (mem_groupOf.mp he).2⟩
    · rintro hun ⟨e', he', hreplaces⟩
      rw [hun.2 e' (hgroup e' he')] at hreplaces
      cases hreplaces
  unfold headsOf
  dsimp only
  rw [hfilter]
  split
  · next hempty =>
      cases hgroup' : groupOf events rid with
      | nil => rfl
      | cons first rest =>
        have hne : groupOf events rid ≠ [] := by
          rw [hgroup']
          exact List.cons_ne_nil _ _
        obtain ⟨top, htop, hun⟩ := h.exists_unsuperseded hne
        have hmem : top ∈ (groupOf events rid).filter fun e => decide (Unsuperseded events e) :=
          List.mem_filter.mpr ⟨htop, decide_eq_true hun⟩
        rw [List.isEmpty_iff.mp hempty] at hmem
        cases hmem
  · rfl

/-! ## The states of records -/

omit [DecidableEq T] in
theorem groupOf_eq_nil {rid : JsString} : groupOf events rid = [] ↔ rid ∉ events.map fun e => recordId e.record := by
  unfold groupOf
  rw [List.filter_eq_nil_iff, List.mem_map]
  simp only [decide_eq_true_eq, not_exists, not_and]

/-- The ids of the records, in the order of their first lines. -/
def recordIds (events : List (IdentityRelationEvent T)) : List JsString :=
  distinct (events.map fun e ↦ recordId e.record)

omit [DecidableEq T] in
theorem mem_recordIds {rid : JsString} : rid ∈ recordIds events ↔ groupOf events rid ≠ [] := by
  unfold recordIds
  rw [mem_distinct, ne_eq, groupOf_eq_nil, not_not]

theorem getState_eq (log : IdentityLog) (rid : JsString) :
    getState functions T log rid = recordState functions (groupOf (eventsOf T log) rid) := by
  have hgroup : ((grouped (eventsOf T log)).get? rid).getD [] = groupOf (eventsOf T log) rid := by
    unfold grouped groupOf
    rw [InsertionMap.groupBy_getD, List.map_id']
    exact List.filter_congr fun e _ => decide_eq_decide.mpr ⟨Option.some.inj, congrArg some⟩
  unfold getState
  cases hget : (grouped (eventsOf T log)).get? rid with
  | none =>
    rw [hget, Option.getD_none] at hgroup
    rw [← hgroup]
    rfl
  | some group =>
    rw [hget, Option.getD_some] at hgroup
    rw [← hgroup]
    rfl

theorem recordStates_eq (log : IdentityLog) :
    recordStates functions T log = (recordIds (eventsOf T log)).filterMap (getState functions T log) := by
  unfold recordStates
  rw [InsertionMap.values_eq_filterMap, List.filterMap_filterMap]
  have hkeys : (grouped (eventsOf T log)).keys = recordIds (eventsOf T log) := by
    unfold grouped recordIds
    rw [InsertionMap.keys_groupBy]
    exact congrArg distinct (congrFun List.filterMap_eq_map' _)
  rw [hkeys]
  rfl

theorem records_eq (log : IdentityLog) : (recordStates functions T log).map (·.record) =
    (recordIds (eventsOf T log)).filterMap (getRecord functions T log) := by
  rw [recordStates_eq, List.map_filterMap]
  rfl

/-! ## The view of some heads -/

/-- Two of the heads differ in what a conflict is about. -/
def Differ (heads : List (IdentityRelationEvent T)) : Prop :=
  ∃ e ∈ heads, ∃ e' ∈ heads, conflictComparable e.record ≠ conflictComparable e'.record

instance (heads : List (IdentityRelationEvent T)) : Decidable (Differ heads) :=
  inferInstanceAs (Decidable (∃ e ∈ heads, ∃ e' ∈ heads, _))

omit [DecidableEq T] in
theorem mem_orderedRecords {heads : List (IdentityRelationEvent T)} {r : T} :
    r ∈ recordsByTime functions (sortBy (compareIds functions) heads) ↔ ∃ e ∈ heads, e.record = r := by
  unfold recordsByTime
  simp only [List.mem_map, mem_sortBy]

theorem collapseRecordState_eq (heads : List (IdentityRelationEvent T)) :
    collapseRecordState functions heads =
      (recordsByTime functions (sortBy (compareIds functions) heads)).getLast?.map fun latest =>
        { record := merged (recordsByTime functions (sortBy (compareIds functions) heads)) latest
          nameAppended := nameAppended (recordsByTime functions (sortBy (compareIds functions) heads)) latest
          conflict :=
            if Differ heads then
              some ⟨(sortBy (compareIds functions) heads).map (·.id),
                (sortBy (compareIds functions) heads).map fun event => (event.id, event.record)⟩
            else none } := by
  have hdiffer : 1 < (distinct ((sortBy (compareIds functions) heads).map fun event =>
      conflictComparable event.record)).length ↔ Differ heads := by
    rw [one_lt_length_distinct]
    unfold Differ
    simp only [List.mem_map, mem_sortBy]
    constructor
    · rintro ⟨-, ⟨e, he, rfl⟩, -, ⟨e', he', rfl⟩, hne⟩
      exact ⟨e, he, e', he', hne⟩
    · rintro ⟨e, he, e', he', hne⟩
      exact ⟨_, ⟨e, he, rfl⟩, _, ⟨e', he', rfl⟩, hne⟩
  unfold collapseRecordState
  simp only [hdiffer]

variable {heads heads' : List (IdentityRelationEvent T)} {v v' : Viewed T}

theorem collapse_isSome (hne : heads ≠ []) : ∃ v, collapseRecordState functions heads = some v := by
  rw [collapseRecordState_eq]
  obtain ⟨e, he⟩ := List.exists_mem_of_ne_nil _ hne
  have hmem : e.record ∈ recordsByTime functions (sortBy (compareIds functions) heads) :=
    mem_orderedRecords.mpr ⟨e, he, rfl⟩
  rw [List.getLast?_eq_some_getLast (List.ne_nil_of_mem hmem)]
  exact ⟨_, rfl⟩

theorem collapse_conflicted (h : collapseRecordState functions heads = some v) :
    v.conflicted = true ↔ Differ heads := by
  rw [collapseRecordState_eq] at h
  obtain ⟨latest, -, rfl⟩ := Option.map_eq_some_iff.mp h
  unfold Viewed.conflicted
  dsimp only
  split
  · next hd => exact iff_of_true rfl hd
  · next hd => exact iff_of_false Bool.false_ne_true hd

theorem collapse_conflict {c : IdentityRelationConflictState T} (h : collapseRecordState functions heads = some v)
    (hc : v.conflict = some c) :
    c.conflictEventIds = (sortBy (compareIds functions) heads).map (·.id) ∧
      c.conflictCandidates = (sortBy (compareIds functions) heads).map fun event => (event.id, event.record) := by
  rw [collapseRecordState_eq] at h
  obtain ⟨latest, -, rfl⟩ := Option.map_eq_some_iff.mp h
  dsimp only at hc
  split at hc
  · cases hc
    exact ⟨rfl, rfl⟩
  · cases hc

omit [DecidableEq T] in
theorem conflictComparable_of_not_differ (h : ¬Differ heads) {e e' : IdentityRelationEvent T} (he : e ∈ heads)
    (he' : e' ∈ heads) : conflictComparable e.record = conflictComparable e'.record :=
  Classical.byContradiction fun hne => h ⟨e, he, e', he', hne⟩

section Lawful

variable [LawfulIdentityRecord T]

/-- The record of a view has the id and the conflict-relevant content of one of its heads. -/
theorem collapse_head (h : collapseRecordState functions heads = some v) :
    ∃ e ∈ heads, recordId v.record = recordId e.record ∧
      conflictComparable v.record = conflictComparable e.record := by
  rw [collapseRecordState_eq] at h
  obtain ⟨latest, hlatest, rfl⟩ := Option.map_eq_some_iff.mp h
  obtain ⟨e, he, rfl⟩ := mem_orderedRecords.mp (List.mem_of_getLast? hlatest)
  exact ⟨e, he, LawfulIdentityRecord.recordId_merged _ _, LawfulIdentityRecord.conflictComparable_merged _ _⟩

variable [Std.TransCmp functions.localeCompare]

omit [IdentityRecord T] [DecidableEq T] [LawfulIdentityRecord T] in
instance : Std.TransCmp (compareIds (T := T) functions) :=
  transCmp_on functions.localeCompare fun e : IdentityRelationEvent T ↦ e.id

def compareUpdates (functions : Functions) (a b : IdentityRelationEvent T) : Ordering :=
  functions.localeCompare (updatedAt a.record) (updatedAt b.record)

omit [DecidableEq T] [LawfulIdentityRecord T] in
instance : Std.TransCmp (compareUpdates (T := T) functions) :=
  transCmp_on functions.localeCompare fun e : IdentityRelationEvent T ↦ updatedAt e.record

omit [DecidableEq T] [LawfulIdentityRecord T] in
instance : Std.TransCmp (compareTimes (T := T) functions) :=
  inferInstanceAs (Std.TransCmp (compareLex (compareUpdates functions) (compareIds functions)))

omit [LawfulIdentityRecord T] in
/-- The heads by time are the same up to repeated lines. -/
theorem squeeze_orderedRecords (hmem : ∀ e, e ∈ heads ↔ e ∈ heads')
    (htold : ∀ e ∈ heads, ∀ e' ∈ heads, functions.localeCompare e.id e'.id = .eq → e = e') :
    squeeze (recordsByTime functions (sortBy (compareIds functions) heads)) =
      squeeze (recordsByTime functions (sortBy (compareIds functions) heads')) := by
  have hsqueeze : squeeze (sortBy (compareTimes functions) (sortBy (compareIds functions) heads)) =
      squeeze (sortBy (compareTimes functions) (sortBy (compareIds functions) heads')) := by
    refine squeeze_sortBy_congr (fun e => by rw [mem_sortBy, mem_sortBy, hmem]) fun e he e' he' heq => ?_
    exact htold e (mem_sortBy.mp he) e' (mem_sortBy.mp he') (Ordering.then_eq_eq.mp heq).2
  unfold recordsByTime
  rw [← squeeze_map, hsqueeze, squeeze_map]

/-- What the view says of the heads as a set. -/
theorem collapse_congr (hmem : ∀ e, e ∈ heads ↔ e ∈ heads') (htold : ∀ e ∈ heads, ∀ e' ∈ heads, functions.localeCompare
    e.id e'.id = .eq → e = e') (h : collapseRecordState functions heads = some v) (h' : collapseRecordState functions
    heads' = some v') : v.record = v'.record ∧ v.nameAppended = v'.nameAppended := by
  have hsqueeze := squeeze_orderedRecords hmem htold
  rw [collapseRecordState_eq] at h h'
  obtain ⟨latest, hlatest, rfl⟩ := Option.map_eq_some_iff.mp h
  obtain ⟨latest', hlatest', rfl⟩ := Option.map_eq_some_iff.mp h'
  rw [← getLast?_squeeze, hsqueeze, getLast?_squeeze, hlatest', Option.some.injEq] at hlatest
  subst hlatest
  dsimp only
  rw [← LawfulIdentityRecord.merged_squeeze, ← LawfulIdentityRecord.nameAppended_squeeze, hsqueeze,
    LawfulIdentityRecord.merged_squeeze, LawfulIdentityRecord.nameAppended_squeeze]
  exact ⟨rfl, rfl⟩

omit [DecidableEq T] [LawfulIdentityRecord T] in
theorem differ_congr (hmem : ∀ e, e ∈ heads ↔ e ∈ heads') : Differ heads ↔ Differ heads' := by
  unfold Differ
  simp only [hmem]

/-- The conflict state counts the lines of the heads, and nothing else does. -/
theorem collapse_eq_iff (hmem : ∀ e, e ∈ heads ↔ e ∈ heads') (htold : ∀ e ∈ heads, ∀ e' ∈ heads, functions.localeCompare
    e.id e'.id = .eq → e = e') (h : collapseRecordState functions heads = some v) (h' : collapseRecordState functions
    heads' = some v') : v = v' ↔ (Differ heads → heads.Perm heads') := by
  obtain ⟨hrecord, hname⟩ := collapse_congr hmem htold h h'
  have hids : ∀ e ∈ heads, ∀ e' ∈ heads', e.id = e'.id → e = e' := fun e he e' he' heq =>
    htold e he e' ((hmem e').mpr he') (by rw [heq]; exact Std.ReflCmp.compare_self)
  have hconflict : v.conflict = v'.conflict ↔ (Differ heads → heads.Perm heads') := by
    rw [collapseRecordState_eq] at h h'
    obtain ⟨latest, hlatest, rfl⟩ := Option.map_eq_some_iff.mp h
    obtain ⟨latest', hlatest', rfl⟩ := Option.map_eq_some_iff.mp h'
    dsimp only
    by_cases hd : Differ heads
    · rw [if_pos hd, if_pos ((differ_congr hmem).mp hd)]
      constructor
      · intro heq _
        have hsorted : (sortBy (compareIds functions) heads).map (·.id) =
            (sortBy (compareIds functions) heads').map (·.id) :=
          congrArg IdentityRelationConflictState.conflictEventIds (Option.some.inj heq)
        have hsame := eq_of_map_eq hsorted fun e he e' he' => hids e (mem_sortBy.mp he) e' (mem_sortBy.mp he')
        exact ((sortBy_perm heads).symm.trans (List.Perm.of_eq hsame)).trans (sortBy_perm heads')
      · intro hperm
        have hsorted : sortBy (compareIds functions) heads = sortBy (compareIds functions) heads' :=
          sortBy_congr (hperm hd) htold
        rw [hsorted]
    · rw [if_neg hd, if_neg fun h => hd ((differ_congr hmem).mpr h)]
      exact iff_of_true rfl fun h => absurd h hd
  rw [← hconflict]
  constructor
  · intro heq
    rw [heq]
  · intro heq
    cases v
    cases v'
    cases hrecord
    cases hname
    cases heq
    rfl

end Lawful

end View

end RabiRoute.IdentityRelations
