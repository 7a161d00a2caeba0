import RabiRoute.AgentRequests.Drafts
import RabiRoute.AgentRequests.Lifecycle

/-!
# The projection of the ledger

`AgentRequestStore` sends one mutation at a time to the durable owner and applies the changes that the owner
acknowledges.  What it publishes is what the owner has committed.
-/

open Collections Interleave Transitions

namespace RabiRoute.AgentRequests

/-! ## The store and its owner -/

structure AgentRequestStore where
  requests : InsertionMap JsString AgentRequestRecord := .empty
  deliveries : InsertionMap JsString PreparedEndpointDelivery := .empty
  revision : Nat := 0
  failure : Bool := false

namespace AgentRequestStore

def publish (store : AgentRequestStore) (requests : List AgentRequestRecord)
    (deliveries : List PreparedEndpointDelivery) : AgentRequestStore :=
  { store with
    requests := store.requests.setAll (requests.map fun record ↦ (record.id, record))
    deliveries := store.deliveries.setAll (deliveries.map fun delivery ↦ (delivery.deliveryId, delivery)) }

/-- `publishInitial`, with the `readModel` of the owner. -/
def publishInitial (s : AgentRequestState) : AgentRequestStore :=
  publish {} s.requests.values (s.deliveries.values.map metadata)

def apply (store : AgentRequestStore) (delta : Delta) : AgentRequestStore :=
  publish { store with
    requests := delta.removedRequests.foldl InsertionMap.erase store.requests
    deliveries := delta.removedDeliveries.foldl InsertionMap.erase store.deliveries } delta.requests delta.deliveries

end AgentRequestStore

/-- A command to the owner.  `unknown` says whether an error of it leaves the commit unknown. -/
structure Mutation where
  call : Call
  env : Env
  same : SameFields
  unknown : Bool := false

inductive OwnerReply where
  | committed (revision : Nat) (delta : Delta)
  | refused (unknown : Bool)

/-- The process of the durable owner. -/
structure PersistenceOwner where
  state : AgentRequestState
  revision : Nat := 0
  fenced : Bool := false

def PersistenceOwner.command (functions : Functions) (owner : PersistenceOwner) (mutation : Mutation) (revision : Nat) :
    OwnerReply × PersistenceOwner :=
  if owner.fenced then (.refused true, owner)
  else if revision ≠ owner.revision then (.refused false, owner)
  else
    match owner.state.draftedTransaction mutation.same (mutation.call.operation functions mutation.env) with
    | (.ok (_, delta), state) =>
      (.committed (owner.revision + 1) delta, { owner with state, revision := owner.revision + 1 })
    | (.error _, state) => (.refused mutation.unknown, { owner with state, fenced := mutation.unknown })

/-- What a mutation does with the reply. -/
def AgentRequestStore.receive (store : AgentRequestStore) : OwnerReply → AgentRequestStore
  | .committed revision delta =>
    if revision ≠ store.revision + 1 then { store with failure := true } else { store.apply delta with revision }
  | .refused unknown => if unknown then { store with failure := true } else store

/-- The mutation that `drain` has at work. -/
inductive Wire where
  | idle
  | sent (mutation : Mutation) (revision : Nat)
  | replied (reply : OwnerReply)

structure Publication where
  store : AgentRequestStore
  owner : PersistenceOwner
  wire : Wire := .idle

namespace Publication

def opened (s : AgentRequestState) : Publication := ⟨.publishInitial s, { state := s }, .idle⟩

/-- `fail` is a timeout, an error of the transport or the end of the owner's process. -/
inductive Event where
  | mutate (mutation : Mutation)
  | execute
  | receive
  | fail

def step (functions : Functions) : Event → Publication → Option (Unit × Publication)
  | .mutate mutation, p =>
    match p.wire with
    | .idle => if p.store.failure then none else some ((), { p with wire := .sent mutation p.store.revision })
    | _ => none
  | .execute, p =>
    match p.wire with
    | .sent mutation revision =>
      if Fresh mutation.env p.owner.state then
        some ((), { p with
          owner := (p.owner.command functions mutation revision).2
          wire := .replied (p.owner.command functions mutation revision).1 })
      else none
    | _ => none
  | .receive, p =>
    match p.wire with
    | .replied reply => some ((), { p with store := if p.store.failure then p.store else p.store.receive reply, wire := .idle })
    | _ => none
  | .fail, p => some ((), { p with store := { p.store with failure := true } })

def system (functions : Functions) : System Publication Event Unit := ⟨step functions⟩

/-- The comparison of the fields is exact. -/
def Exact : Event → Publication → Prop
  | .mutate mutation, _ => mutation.same.Exact
  | _, _ => True

/-- The store publishes the records of the ledger. -/
structure Shows (store : AgentRequestStore) (s : AgentRequestState) : Prop where
  requests : ∀ id, store.requests.get? id = s.requests.get? id
  deliveries : ∀ id, store.deliveries.get? id = (s.deliveries.get? id).map metadata

/-- What the store publishes, once it has applied the changes that are on their way. -/
def Agrees (store : AgentRequestStore) (owner : PersistenceOwner) : Wire → Prop
  | .idle => Shows store owner.state ∧ store.revision = owner.revision
  | .sent mutation revision =>
    (Shows store owner.state ∧ store.revision = owner.revision) ∧ mutation.same.Exact ∧ revision = store.revision
  | .replied (.refused _) => Shows store owner.state ∧ store.revision = owner.revision
  | .replied (.committed revision delta) =>
    Shows (store.apply delta) owner.state ∧ revision = owner.revision ∧ store.revision + 1 = owner.revision

/-! ## Applying the changes of a transaction -/

variable {functions : Functions} {s s' : AgentRequestState} {p p' : Publication} {α β : Type}

theorem get?_eraseAll {published : InsertionMap JsString β} {id : JsString} (removed : List JsString) :
    (removed.foldl InsertionMap.erase published).get? id = if id ∈ removed then none else published.get? id := by
  induction removed generalizing published with
  | nil => rfl
  | cons key removed ih =>
    rw [List.foldl_cons, ih, InsertionMap.get?_erase]
    by_cases h : id = key <;> simp [h]

/-- The changes of a draft take a projection of the records of before to the one of the records of after. -/
theorem get?_changes {before : InsertionMap JsString α} {m : AgentRequestDraftMap α} {same : JsString → α → α → Bool}
    (name : β → JsString) (view : α → β) {published : InsertionMap JsString β} (h : m.Drafts before)
    (hsame : ∀ key before after, same key before after = true → before = after)
    (hname : ∀ key value, m.current.get? key = some value → name (view value) = key)
    (hpublished : ∀ id, published.get? id = (before.get? id).map view) (id : JsString) :
    (((m.changes same).2.foldl InsertionMap.erase published).setAll
      (((m.changes same).1.map view).map fun value => (name value, value))).get? id = (m.current.get? id).map view := by
  have hafter : ∀ entry ∈ ((m.changes same).1.map view).map fun value => (name value, value),
      (m.current.mapValues view).get? entry.1 = some entry.2 := by
    intro entry hentry
    simp only [AgentRequestDraftMap.changes, List.map_map, List.mem_map, List.mem_filterMap, Option.filter_eq_some_iff] at hentry
    obtain ⟨value, ⟨key, -, hvalue, -⟩, rfl⟩ := hentry
    rw [InsertionMap.get?_mapValues, Function.comp_apply, hname key value hvalue, hvalue]
    rfl
  rw [InsertionMap.get?_setAll_of_agree hafter, InsertionMap.get?_mapValues, get?_eraseAll, hpublished, ← h.previous]
  split
  case isTrue => rfl
  case isFalse hkept =>
    by_cases htouched : id ∈ m.touched
    · cases hcurrent : m.current.get? id with
      | none => cases hprevious : m.previous.get? id <;> simp [AgentRequestDraftMap.changes, htouched, hcurrent, hprevious]
      | some after =>
        have hremoved : id ∉ (m.changes same).2 := by simp [AgentRequestDraftMap.changes, hcurrent]
        cases hequal : (m.previous.get? id).any fun before => same id before after with
        | true =>
          obtain ⟨before, hbefore, heq⟩ := (Option.any_eq_true _ _).mp hequal
          rw [if_neg hremoved, hbefore, hsame id before after heq]
        | false =>
          refine absurd (List.mem_map.mpr ⟨(id, view after), List.mem_map.mpr ⟨view after, List.mem_map_of_mem ?_, ?_⟩, rfl⟩) hkept
          · exact List.mem_filterMap.mpr ⟨id, htouched, by simp [hcurrent, hequal]⟩
          · rw [hname id after hcurrent]
    · have hremoved : id ∉ (m.changes same).2 := fun h => htouched (List.mem_filter.mp h).1
      rw [if_neg hremoved, h.tracks id htouched, h.previous]

/-- The acknowledged changes bring the projection to what the owner has committed. -/
theorem Shows.apply {same : SameFields} (hsame : same.Exact) {store : AgentRequestStore} (h : Shows store s)
    {d : AgentRequestDraft} (hdrafts : d.Drafts s) (hkeyed : Keyed d.current) :
    Shows (store.apply (d.delta same)) d.current := by
  constructor
  · intro id
    have hpublished (id : JsString) : store.requests.get? id = (s.requests.get? id).map fun record => record := by
      rw [h.requests, Option.map_id']
    have hchanges := get?_changes AgentRequestRecord.id (fun record => record) hdrafts.requests hsame.request
      hkeyed.requests hpublished id
    rw [List.map_id', Option.map_id'] at hchanges
    exact hchanges
  · exact get?_changes PreparedEndpointDelivery.deliveryId metadata hdrafts.deliveries hsame.delivery hkeyed.deliveries
      h.deliveries

/-- Publishing the records of a map sets each of them under its own key. -/
theorem get?_publishAll {m : InsertionMap JsString α} (name : β → JsString) (view : α → β)
    (hname : ∀ key value, m.get? key = some value → name (view value) = key) (id : JsString) :
    (InsertionMap.empty.setAll ((m.values.map view).map fun value => (name value, value))).get? id = (m.get? id).map view := by
  have hentries : (m.values.map view).map (fun value => (name value, value)) = (m.mapValues view).entries := by
    unfold InsertionMap.values InsertionMap.mapValues
    rw [List.map_map, List.map_map]
    refine List.map_congr_left fun entry hentry => ?_
    exact congrArg (·, view entry.2) (hname entry.1 entry.2 (InsertionMap.get?_eq_some.mpr hentry))
  rw [hentries, InsertionMap.get?_setAll_of_agree fun entry hentry => InsertionMap.get?_eq_some.mpr hentry,
    InsertionMap.get?_mapValues]
  split
  case isTrue => rfl
  case isFalse hnone =>
    have hnone' : (m.mapValues view).get? id = none := by
      cases hget : (m.mapValues view).get? id with
      | none => rfl
      | some value => exact absurd (List.mem_map_of_mem (InsertionMap.get?_eq_some.mp hget)) hnone
    rw [← InsertionMap.get?_mapValues, hnone']
    rfl

theorem shows_publishInitial (hkeyed : Keyed s) : Shows (.publishInitial s) s := by
  constructor
  · intro id
    have hpublished := get?_publishAll AgentRequestRecord.id (fun record => record) hkeyed.requests id
    rw [List.map_id', Option.map_id'] at hpublished
    exact hpublished
  · exact get?_publishAll PreparedEndpointDelivery.deliveryId metadata hkeyed.deliveries

/-! ## Runs -/

structure Follows (functions : Functions) (s : AgentRequestState) (p : Publication) : Prop where
  reach : (ledger functions).Reach s p.owner.state
  keyed : Keyed p.owner.state
  seen : ∃ seen, (ledger functions).Reach s seen ∧ Shows p.store seen
  agrees : p.store.failure = false → Agrees p.store p.owner p.wire

theorem Follows.fails {wire : Wire} (h : Follows functions s p) :
    Follows functions s ⟨{ p.store with failure := true }, p.owner, wire⟩ where
  reach := h.reach
  keyed := h.keyed
  seen := h.seen.imp fun _ hseen => ⟨hseen.1, hseen.2.requests, hseen.2.deliveries⟩
  agrees hrunning := by cases hrunning

theorem follows_command {mutation : Mutation} {revision : Nat} (h : Follows functions s p)
    (hwire : p.wire = .sent mutation revision) (hfresh : Fresh mutation.env p.owner.state) :
    Follows functions s { p with
      owner := (p.owner.command functions mutation revision).2
      wire := .replied (p.owner.command functions mutation revision).1 } := by
  have hsent (hrunning : p.store.failure = false) := h.agrees hrunning
  rw [hwire] at hsent
  unfold PersistenceOwner.command
  split
  · exact ⟨h.reach, h.keyed, h.seen, fun hrunning => (hsent hrunning).1⟩
  · split
    · exact ⟨h.reach, h.keyed, h.seen, fun hrunning => (hsent hrunning).1⟩
    · rcases hrun : p.owner.state.draftedTransaction mutation.same (mutation.call.operation functions mutation.env) with
        ⟨outcome, next⟩
      obtain ⟨hspec, hdelta⟩ := draftedTransaction_spec mutation.same hrun
      have hstep : (ledger functions).step ⟨mutation.call, mutation.env, true⟩ p.owner.state =
          some (outcome.map Prod.fst, next) := by
        simp only [ledger, hfresh, if_true, Event.run, hspec]
      have hnext : Keyed next := h.keyed.step (event_steps h.keyed hstep).requests (event_steps h.keyed hstep).deliveries
      have hreach : (ledger functions).Reach s next := h.reach.next _ _ trivial hstep
      cases outcome with
      | ok answer =>
        refine ⟨hreach, hnext, h.seen, fun hrunning => ?_⟩
        obtain ⟨⟨hshows, hrevision⟩, hsame, -⟩ := hsent hrunning
        obtain ⟨d, hd, rfl, hdrafts⟩ := hdelta answer.1 answer.2 rfl
        have happlied := hshows.apply hsame hdrafts hnext
        rw [← hd] at happlied
        exact ⟨happlied, rfl, congrArg (· + 1) hrevision⟩
      | error failure =>
        have hkept : next.requests = p.owner.state.requests ∧ next.deliveries = p.owner.state.deliveries := by
          unfold AgentRequestState.transaction at hspec
          split at hspec <;> cases hspec
          exact ⟨rfl, rfl⟩
        refine ⟨hreach, hnext, h.seen, fun hrunning => ?_⟩
        obtain ⟨⟨hshows, hrevision⟩, -, -⟩ := hsent hrunning
        exact ⟨⟨fun id => hkept.1 ▸ hshows.requests id, fun id => hkept.2 ▸ hshows.deliveries id⟩, hrevision⟩

theorem follows_step {event : Event} {answer : Unit} (h : Follows functions s p) (hexact : Exact event p)
    (hstep : (system functions).step event p = some (answer, p')) : Follows functions s p' := by
  cases event with
  | fail =>
    cases hstep
    exact h.fails
  | mutate mutation =>
    simp only [system, step] at hstep
    split at hstep
    case h_2 => cases hstep
    case h_1 hwire =>
      split at hstep
      case isTrue => cases hstep
      case isFalse =>
        cases hstep
        refine ⟨h.reach, h.keyed, h.seen, fun hrunning => ?_⟩
        have hagrees := h.agrees hrunning
        rw [hwire] at hagrees
        exact ⟨hagrees, hexact, rfl⟩
  | execute =>
    simp only [system, step] at hstep
    split at hstep
    case h_2 => cases hstep
    case h_1 mutation revision hwire =>
      split at hstep
      case isFalse => cases hstep
      case isTrue hfresh =>
        cases hstep
        exact follows_command h hwire hfresh
  | receive =>
    simp only [system, step] at hstep
    split at hstep
    case h_2 => cases hstep
    case h_1 reply hwire =>
      cases hstep
      cases hfailed : p.store.failure with
      | true => exact ⟨h.reach, h.keyed, h.seen, fun hrunning => by cases hfailed.symm.trans hrunning⟩
      | false =>
        have hagrees := h.agrees hfailed
        rw [hwire] at hagrees
        cases reply with
        | refused unknown =>
          cases unknown with
          | true => exact h.fails
          | false => exact ⟨h.reach, h.keyed, h.seen, fun _ => hagrees⟩
        | committed revision delta =>
          obtain ⟨hshows, hrevision, hnext⟩ := hagrees
          have hsame : ¬revision ≠ p.store.revision + 1 := fun hne => hne (hrevision.trans hnext.symm)
          have happlied : Shows { p.store.apply delta with revision } p.owner.state := ⟨hshows.requests, hshows.deliveries⟩
          simp only [AgentRequestStore.receive, hsame, if_false, Bool.false_eq_true]
          exact ⟨h.reach, h.keyed, ⟨_, h.reach, happlied⟩, fun _ => ⟨happlied, hrevision⟩⟩

theorem follows_run (hkeyed : Keyed s) (h : (system functions).ReachUnder Exact (opened s) p) : Follows functions s p := by
  have hshows : Shows (opened s).store s := shows_publishInitial hkeyed
  exact h.invariant ⟨.refl, hkeyed, ⟨s, .refl, hshows⟩, fun _ => ⟨hshows, rfl⟩⟩
    fun _ _ _ _ hfollows hexact hstep => follows_step hfollows hexact hstep

/-- In every run the ledger of the owner is one that calls lead to, and a store that has not failed publishes what the
owner has committed. -/
theorem published_is_committed (functions : Functions) (hkeyed : Keyed s)
    (h : (system functions).ReachUnder Exact (opened s) p) :
    (ledger functions).Reach s p.owner.state ∧ (p.store.failure = false → Agrees p.store p.owner p.wire) := by
  exact ⟨(follows_run hkeyed h).reach, (follows_run hkeyed h).agrees⟩

/-- What a store publishes, also after it has failed, is one ledger that calls lead to: of no transaction it shows a part. -/
theorem published_is_whole (functions : Functions) (hkeyed : Keyed s)
    (h : (system functions).ReachUnder Exact (opened s) p) :
    ∃ seen, (ledger functions).Reach s seen ∧ Shows p.store seen :=
  (follows_run hkeyed h).seen

/-- A comparison that takes every touched record for changed. -/
def touchedDiffer : SameFields := ⟨fun _ _ _ ↦ false, fun _ _ _ ↦ false⟩

theorem keyed_empty : Keyed {} := ⟨fun _ _ h => (by cases h), fun _ _ h => (by cases h)⟩

/-- A task is prepared, committed by the owner and published. -/
theorem task_run : ∃ p, (system plainFunctions).ReachUnder Exact (opened {}) p ∧
    (p.store.requests.get? ((envWith 48 49).randomUUID 1)).isSome ∧ p.store.failure = false := by
  have hrun : ((system plainFunctions).run (opened {})
      [.mutate ⟨.prepare task, envWith 48 49, touchedDiffer, false⟩, .execute, .receive]).any (fun p =>
        (p.store.requests.get? ((envWith 48 49).randomUUID 1)).isSome && !p.store.failure) = true := by
    decide +kernel
  obtain ⟨p, hp, hend⟩ := (Option.any_eq_true _ _).mp hrun
  obtain ⟨hrecord, hfailure⟩ := (Bool.and_eq_true _ _).mp hend
  refine ⟨p, System.run_reachUnder (fun e he t => ?_) hp, hrecord, by simpa using hfailure⟩
  simp only [List.mem_cons, List.not_mem_nil, or_false] at he
  obtain rfl | rfl | rfl := he
  · exact ⟨fun _ _ _ h => (by cases h), fun _ _ _ h => (by cases h)⟩
  · trivial
  · trivial

theorem task_is_committed : ∃ p : Publication, p.store.failure = false ∧ Agrees p.store p.owner p.wire :=
  task_run.imp fun _ h => ⟨h.2.2, (published_is_committed plainFunctions keyed_empty h.1).2 h.2.2⟩

theorem task_is_whole : ∃ p : Publication, (p.store.requests.get? ((envWith 48 49).randomUUID 1)).isSome ∧
    ∃ seen, (ledger plainFunctions).Reach {} seen ∧ Shows p.store seen :=
  task_run.imp fun _ h => ⟨h.2.1, published_is_whole plainFunctions keyed_empty h.1⟩

end Publication

end RabiRoute.AgentRequests
