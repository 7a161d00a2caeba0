import RabiRoute.AgentRequests.Calls

/-!
# Drafts of a transaction

`transaction` runs an operation on two `AgentRequestDraftMap`s, which copy a record when it is first read and remember
the keys that were touched.  The drafts hold what the operation makes of the maps themselves, and the maps of before stay
as they were.
-/

open Collections Interleave

namespace RabiRoute.AgentRequests

/-! ## `AgentRequestDraftMap` -/

structure AgentRequestDraftMap (α : Type) where
  previous : InsertionMap JsString α
  current : InsertionMap JsString α
  touched : List JsString := []

namespace AgentRequestDraftMap

variable {α : Type} {before : InsertionMap JsString α} {m : AgentRequestDraftMap α} {key : JsString}

def draftOf (previous : InsertionMap JsString α) : AgentRequestDraftMap α := ⟨previous, previous, []⟩

def touch (m : AgentRequestDraftMap α) (key : JsString) : AgentRequestDraftMap α :=
  { m with touched := if key ∈ m.touched then m.touched else m.touched ++ [key] }

/-- `get`: the first read of a record puts a copy in its place. -/
def get (m : AgentRequestDraftMap α) (key : JsString) : Option α × AgentRequestDraftMap α :=
  match m.current.get? key with
  | none => (none, m)
  | some value =>
    (some value, if key ∈ m.touched then m else { m.touch key with current := m.current.set key value })

def set (m : AgentRequestDraftMap α) (key : JsString) (value : α) : AgentRequestDraftMap α :=
  { m.touch key with current := m.current.set key value }

def delete (m : AgentRequestDraftMap α) (key : JsString) : AgentRequestDraftMap α :=
  { m.touch key with current := m.current.erase key }

/-- `entries` and `values`: each record is read. -/
def entries (m : AgentRequestDraftMap α) : List (JsString × α) × AgentRequestDraftMap α :=
  (m.current.entries, m.current.keys.foldl (fun m key ↦ (m.get key).2) m)

/-- Writes fields of the copy that `get` answers: an operation has no other way to a record. -/
def assign (m : AgentRequestDraftMap α) (key : JsString) (change : α → α) : AgentRequestDraftMap α :=
  match m.get key with
  | (none, m) => m
  | (some value, m) => m.set key (change value)

/-- `changes`: the records that changed and the keys that are gone.  `same` compares the fields of two records. -/
def changes (same : JsString → α → α → Bool) (m : AgentRequestDraftMap α) : List α × List JsString :=
  (m.touched.filterMap fun key ↦
      (m.current.get? key).filter fun after ↦ !(m.previous.get? key).any fun before ↦ same key before after,
    m.touched.filter fun key ↦ (m.current.get? key).isNone && (m.previous.get? key).isSome)

/-- A draft of the map of before: a record that is not touched stands as it was. -/
structure Drafts (before : InsertionMap JsString α) (m : AgentRequestDraftMap α) : Prop where
  previous : m.previous = before
  tracks : ∀ key, key ∉ m.touched → m.current.get? key = before.get? key

theorem mem_touch {other : JsString} : other ∈ (m.touch key).touched ↔ other ∈ m.touched ∨ other = key := by
  unfold touch
  split
  case isTrue hkey => exact ⟨.inl, fun h => h.elim id fun heq => heq ▸ hkey⟩
  case isFalse => simp

/-- An access that touches a key changes what stands under this key only. -/
theorem Drafts.touching {current : InsertionMap JsString α} (h : Drafts before m)
    (hcurrent : ∀ other, other ≠ key → current.get? other = m.current.get? other) :
    Drafts before { m.touch key with current } where
  previous := h.previous
  tracks other hother := by
    obtain ⟨hnew, hne⟩ := not_or.mp (mt mem_touch.mpr hother)
    exact (hcurrent other hne).trans (h.tracks other hnew)

theorem Drafts.set {value : α} (h : Drafts before m) : Drafts before (m.set key value) :=
  h.touching fun _ hne => InsertionMap.get?_set_of_ne hne

theorem Drafts.delete (h : Drafts before m) : Drafts before (m.delete key) :=
  h.touching fun _ hne => InsertionMap.get?_erase.trans (if_neg hne)

theorem get_fst : (m.get key).1 = m.current.get? key := by
  unfold get
  split <;> simp_all

theorem get_current : (m.get key).2.current = m.current := by
  unfold get
  split
  · rfl
  case h_2 value hvalue =>
    split
    · rfl
    · exact InsertionMap.set_eq_self hvalue

theorem Drafts.get (h : Drafts before m) : Drafts before (m.get key).2 := by
  unfold AgentRequestDraftMap.get
  split
  · exact h
  · split
    · exact h
    · exact h.set

theorem entries_current : m.entries.2.current = m.current := by
  suffices hkeys : ∀ keys : List JsString, (keys.foldl (fun m key => (m.get key).2) m).current = m.current from hkeys _
  intro keys
  induction keys generalizing m with
  | nil => rfl
  | cons key keys ih => exact ih.trans get_current

theorem Drafts.entries (h : Drafts before m) : Drafts before m.entries.2 := by
  suffices hkeys : ∀ keys : List JsString, Drafts before (keys.foldl (fun m key => (m.get key).2) m) from hkeys _
  intro keys
  induction keys generalizing m with
  | nil => exact h
  | cons key keys ih => exact ih h.get

theorem assign_current {change : α → α} : (m.assign key change).current =
    (m.current.get? key).elim m.current fun value => m.current.set key (change value) := by
  unfold assign get
  cases hvalue : m.current.get? key with
  | none => rfl
  | some value =>
    dsimp only [Option.elim_some]
    split
    · rfl
    · exact congrArg (·.set key (change value)) (InsertionMap.set_eq_self hvalue)

theorem Drafts.assign {change : α → α} (h : Drafts before m) : Drafts before (m.assign key change) := by
  unfold AgentRequestDraftMap.assign
  have hget : Drafts before (m.get key).2 := h.get
  split <;> rename_i heq <;> rw [heq] at hget
  · exact hget
  · exact hget.set

end AgentRequestDraftMap

/-! ## The ledger on drafts -/

/-- The ledger during a transaction; the maps of `state` are the drafts'. -/
structure AgentRequestDraft where
  state : AgentRequestState
  requests : AgentRequestDraftMap AgentRequestRecord
  deliveries : AgentRequestDraftMap PreparedEndpointDelivery

namespace AgentRequestDraft

def draftOf (s : AgentRequestState) : AgentRequestDraft := ⟨s, .draftOf s.requests, .draftOf s.deliveries⟩

def current (d : AgentRequestDraft) : AgentRequestState :=
  { d.state with requests := d.requests.current, deliveries := d.deliveries.current }

/-- The maps of before. -/
def previous (d : AgentRequestDraft) : AgentRequestState :=
  { d.state with requests := d.requests.previous, deliveries := d.deliveries.previous }

/-- Each access on the drafts; `persist` and `has` touch nothing. -/
def perform : (access : Access) → AgentRequestDraft → access.Answer × AgentRequestDraft
  | .getRequest id, d => ((d.requests.get id).1, { d with requests := (d.requests.get id).2 })
  | .hasRequest id, d => ((d.requests.current.get? id).isSome, d)
  | .requestEntries, d => (d.requests.entries.1, { d with requests := d.requests.entries.2 })
  | .assignRequest id change, d => ((), { d with requests := d.requests.assign id change })
  | .setRequest id record, d => ((), { d with requests := d.requests.set id record })
  | .deleteRequest id, d => ((), { d with requests := d.requests.delete id })
  | .getDelivery id, d => ((d.deliveries.get id).1, { d with deliveries := (d.deliveries.get id).2 })
  | .hasDelivery id, d => ((d.deliveries.current.get? id).isSome, d)
  | .deliveryEntries, d => (d.deliveries.entries.1, { d with deliveries := d.deliveries.entries.2 })
  | .assignDelivery id change, d => ((), { d with deliveries := d.deliveries.assign id change })
  | .setDelivery id delivery, d => ((), { d with deliveries := d.deliveries.set id delivery })
  | .deleteDelivery id, d => ((), { d with deliveries := d.deliveries.delete id })
  | .unavailableDeliveryIds, d => (d.state.unavailableDeliveryIds, d)
  | .quarantinedRequests, d => (d.state.quarantinedRequests.values, d)
  | .quarantinedDeliveries, d => (d.state.quarantinedDeliveries.values, d)
  | .persist write, d => ((d.current.persist write).1, { d with state := (d.current.persist write).2 })

variable {s : AgentRequestState} {d : AgentRequestDraft}

structure Drafts (s : AgentRequestState) (d : AgentRequestDraft) : Prop where
  requests : d.requests.Drafts s.requests
  deliveries : d.deliveries.Drafts s.deliveries

theorem perform_drafts (h : Drafts s d) (access : Access) : Drafts s (perform access d).2 := by
  cases access with
  | getRequest => exact ⟨h.requests.get, h.deliveries⟩
  | requestEntries => exact ⟨h.requests.entries, h.deliveries⟩
  | assignRequest => exact ⟨h.requests.assign, h.deliveries⟩
  | setRequest => exact ⟨h.requests.set, h.deliveries⟩
  | deleteRequest => exact ⟨h.requests.delete, h.deliveries⟩
  | getDelivery => exact ⟨h.requests, h.deliveries.get⟩
  | deliveryEntries => exact ⟨h.requests, h.deliveries.entries⟩
  | assignDelivery => exact ⟨h.requests, h.deliveries.assign⟩
  | setDelivery => exact ⟨h.requests, h.deliveries.set⟩
  | deleteDelivery => exact ⟨h.requests, h.deliveries.delete⟩
  | _ => exact ⟨h.requests, h.deliveries⟩

open AgentRequestDraftMap (get_fst get_current entries_current assign_current)

/-- An access does to the drafts what it does to the maps. -/
theorem perform_current (d : AgentRequestDraft) (access : Access) :
    (perform access d).1 = (AgentRequestState.perform access d.current).1 ∧
      (perform access d).2.current = (AgentRequestState.perform access d.current).2 := by
  cases access with
  | getRequest => exact ⟨get_fst, congrArg (fun requests => { d.current with requests }) get_current⟩
  | getDelivery => exact ⟨get_fst, congrArg (fun deliveries => { d.current with deliveries }) get_current⟩
  | requestEntries => exact ⟨rfl, congrArg (fun requests => { d.current with requests }) entries_current⟩
  | deliveryEntries => exact ⟨rfl, congrArg (fun deliveries => { d.current with deliveries }) entries_current⟩
  | assignRequest id change =>
    refine ⟨rfl, (congrArg (fun requests => { d.current with requests }) assign_current).trans ?_⟩
    show _ = d.current.assignRequest id change
    unfold AgentRequestState.assignRequest current
    cases d.requests.current.get? id <;> rfl
  | assignDelivery id change =>
    refine ⟨rfl, (congrArg (fun deliveries => { d.current with deliveries }) assign_current).trans ?_⟩
    show _ = d.current.assignDelivery id change
    unfold AgentRequestState.assignDelivery current
    cases d.deliveries.current.get? id <;> rfl
  | persist write =>
    refine ⟨rfl, ?_⟩
    show current { d with state := (d.current.persist write).2 } = (d.current.persist write).2
    unfold AgentRequestState.persist
    split <;> rfl
  | _ => exact ⟨rfl, rfl⟩

/-- An operation does to the drafts what it does to the maps. -/
theorem run_drafts {α : Type} (h : Drafts s d) (operation : Operation α) :
    (operation.run perform d).1 = (d.current.run operation).1 ∧
      (operation.run perform d).2.current = (d.current.run operation).2 ∧ Drafts s (operation.run perform d).2 := by
  unfold AgentRequestState.run
  induction operation generalizing d with
  | ret a => exact ⟨rfl, rfl, h⟩
  | raise failure => exact ⟨rfl, rfl, h⟩
  | step access k ih =>
    obtain ⟨hanswer, hcurrent⟩ := perform_current d access
    rw [Program.run_step, Program.run_step, ← hanswer, ← hcurrent]
    exact ih _ (perform_drafts h access)

end AgentRequestDraft

/-! ## `transaction` -/

/-- What a transaction changed; the prompts of the deliveries are left out. -/
structure Delta where
  requests : List AgentRequestRecord
  removedRequests : List JsString
  deliveries : List PreparedEndpointDelivery
  removedDeliveries : List JsString

/-- `({ prompt: _prompt, ...metadata }) => metadata` -/
def metadata (delivery : PreparedEndpointDelivery) : PreparedEndpointDelivery := { delivery with prompt := [] }

/-- The comparisons of the fields of two records, each with its key. -/
structure SameFields where
  request : JsString → AgentRequestRecord → AgentRequestRecord → Bool
  delivery : JsString → PreparedEndpointDelivery → PreparedEndpointDelivery → Bool

/-- Records whose fields are the same values or objects are equal. -/
structure SameFields.Exact (same : SameFields) : Prop where
  request : ∀ key before after, same.request key before after = true → before = after
  delivery : ∀ key before after, same.delivery key before after = true → before = after

def AgentRequestDraft.delta (same : SameFields) (d : AgentRequestDraft) : Delta where
  requests := (d.requests.changes same.request).1
  removedRequests := (d.requests.changes same.request).2
  deliveries := (d.deliveries.changes same.delivery).1.map metadata
  removedDeliveries := (d.deliveries.changes same.delivery).2

/-- `transaction`, with the drafts. -/
def AgentRequestState.draftedTransaction {α : Type} (same : SameFields) (s : AgentRequestState)
    (operation : Operation α) : Except Failure (α × Delta) × AgentRequestState :=
  match operation.run AgentRequestDraft.perform (.draftOf s) with
  | (.ok a, d) => (.ok (a, d.delta same), d.current)
  | (.error failure, d) => (.error failure, d.previous)

variable {α : Type} {s s' : AgentRequestState} {operation : Operation α}

/-- What a transaction on drafts leaves, and the drafts whose changes it answers. -/
theorem draftedTransaction_spec (same : SameFields) {outcome : Except Failure (α × Delta)}
    (h : s.draftedTransaction same operation = (outcome, s')) :
    s.transaction operation = (outcome.map Prod.fst, s') ∧
      ∀ a delta, outcome = .ok (a, delta) → ∃ d : AgentRequestDraft, delta = d.delta same ∧ d.current = s' ∧ d.Drafts s := by
  obtain ⟨houtcome, hcurrent, hdrafts⟩ :=
    AgentRequestDraft.run_drafts (s := s) (d := .draftOf s) ⟨⟨rfl, fun _ _ => rfl⟩, rfl, fun _ _ => rfl⟩ operation
  have hsame : AgentRequestDraft.current (.draftOf s) = s := rfl
  rw [hsame] at houtcome hcurrent
  unfold AgentRequestState.transaction
  unfold AgentRequestState.draftedTransaction at h
  rcases hrun : operation.run AgentRequestDraft.perform (.draftOf s) with ⟨answer, d⟩
  rcases hplain : s.run operation with ⟨answer', next⟩
  rw [hrun, hplain] at houtcome hcurrent
  rw [hrun] at h hdrafts
  obtain rfl : answer = answer' := houtcome
  obtain rfl : d.current = next := hcurrent
  have hd : d.Drafts s := hdrafts
  cases answer with
  | ok a =>
    cases h
    exact ⟨rfl, fun a delta heq => by cases heq; exact ⟨d, rfl, rfl, hd⟩⟩
  | error failure =>
    cases h
    refine ⟨?_, fun _ _ heq => by cases heq⟩
    simp only [AgentRequestDraft.previous, AgentRequestDraft.current, hd.requests.previous,
      hd.deliveries.previous, Except.map]

/-- A transaction on drafts answers and leaves what the operation does on the maps themselves, and after an error the maps
are those of before. -/
theorem draftedTransaction_refines (same : SameFields) (s : AgentRequestState) (operation : Operation α) :
    ((s.draftedTransaction same operation).1.map Prod.fst, (s.draftedTransaction same operation).2) =
      s.transaction operation :=
  (draftedTransaction_spec same rfl).1.symm

end RabiRoute.AgentRequests
