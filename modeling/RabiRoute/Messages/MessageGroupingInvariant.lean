import RabiRoute.Messages.MessageGrouping

/-!
# What the grouping queue keeps

Each identity is held by one group at most, and not by any group while it is among the delivered
ones.  The state file has the same property, so a restart keeps it.
-/

open Collections

namespace RabiRoute.MessageGrouping

variable {D : Type}

/-! ## Lists of delivered identities -/

theorem mem_addIdentity {set : List Identity} {i j : Identity} : j ∈ addIdentity set i ↔ j ∈ set ∨ j = i := by
  unfold addIdentity
  split
  case isTrue hi =>
    refine ⟨.inl, fun h => h.elim id ?_⟩
    rintro rfl
    exact hi
  case isFalse => rw [List.mem_append, List.mem_singleton]

theorem mem_foldl_addIdentity {l set : List Identity} {j : Identity} :
    j ∈ l.foldl addIdentity set ↔ j ∈ set ∨ j ∈ l := by
  induction l generalizing set with
  | nil => simp
  | cons i l ih => rw [List.foldl_cons, ih, mem_addIdentity, List.mem_cons, or_assoc]

theorem nodup_foldl_addIdentity {l set : List Identity} (h : set.Nodup) : (l.foldl addIdentity set).Nodup := by
  induction l generalizing set with
  | nil => exact h
  | cons i l ih =>
    refine ih ?_
    unfold addIdentity
    split
    case isTrue => exact h
    case isFalse hi => exact List.nodup_append.mpr ⟨h, List.nodup_singleton i, by grind⟩

/-- Identities that are new and distinct are added at the end. -/
theorem foldl_addIdentity {l set : List Identity} (hl : l.Nodup) (hnew : ∀ i ∈ l, i ∉ set) :
    l.foldl addIdentity set = set ++ l := by
  induction l generalizing set with
  | nil => simp
  | cons i l ih =>
    obtain ⟨hi, hl⟩ := List.nodup_cons.mp hl
    have hset : addIdentity set i = set ++ [i] := if_neg (hnew i List.mem_cons_self)
    rw [List.foldl_cons, hset, ih hl, List.append_assoc, List.singleton_append]
    intro j hj
    rw [List.mem_append, List.mem_singleton]
    rintro (hset | rfl)
    · exact hnew j (List.mem_cons_of_mem i hj) hset
    · exact hi hj

theorem takeLast_sublist {α : Type} (n : Nat) (l : List α) : (takeLast n l).Sublist l :=
  List.drop_sublist _ l

theorem takeLast_of_length_le {α : Type} {n : Nat} {l : List α} (h : l.length ≤ n) : takeLast n l = l := by
  unfold takeLast
  rw [Nat.sub_eq_zero_of_le h, List.drop_zero]

theorem length_takeLast_le {α : Type} (n : Nat) (l : List α) : (takeLast n l).length ≤ n := by
  unfold takeLast
  rw [List.length_drop]
  omega

/-- What is older than the window does not matter. -/
theorem takeLast_append {α : Type} (n : Nat) (l m : List α) : takeLast n (takeLast n l ++ m) = takeLast n (l ++ m) := by
  unfold takeLast
  by_cases hn : l.length ≤ n
  · rw [Nat.sub_eq_zero_of_le hn, List.drop_zero]
  · have hsplit : l ++ m = l.take (l.length - n) ++ (l.drop (l.length - n) ++ m) := by
      rw [← List.append_assoc, List.take_append_drop]
    have hlength : (l ++ m).length - n = (l.take (l.length - n)).length +
        ((l.drop (l.length - n) ++ m).length - n) := by
      simp only [List.length_append, List.length_take, List.length_drop]
      omega
    rw [hlength, hsplit, List.drop_length_add_append]

theorem evict_eq_takeLast {l : List Identity} (h : ∀ i ∈ l, i ≠ []) :
    evict l = takeLast maxMessageGroupDeliveredIdentities l := by
  induction l with
  | nil => rfl
  | cons i l ih =>
    unfold evict
    split
    case isTrue hlong =>
      rw [ih fun j hj => h j (List.mem_cons_of_mem i hj)]
      unfold takeLast
      have hdrop : (i :: l).length - maxMessageGroupDeliveredIdentities =
          l.length - maxMessageGroupDeliveredIdentities + 1 := by
        have := hlong.1
        simp only [List.length_cons] at this ⊢
        omega
      rw [hdrop, List.drop_succ_cons]
    case isFalse hshort =>
      rw [takeLast_of_length_le]
      by_contra hlong
      exact hshort ⟨by omega, h i List.mem_cons_self⟩

/-! ## Groups that hold each identity once -/

theorem holds_iff {group : PendingMessageGroup D} {i : Identity} :
    group.holds i = true ↔ ∃ item ∈ group.items, item.identity = i := by
  simp [PendingMessageGroup.holds]

structure ItemWellFormed (item : MessageGroupItem D) : Prop where
  identity : item.identity ≠ []
  routeKind : item.payload.routeKind ≠ []

/-- What `normalizeGroup` asks of a group. -/
structure WellFormed (group : PendingMessageGroup D) : Prop where
  groupId : group.groupId ≠ []
  key : group.key ≠ []
  baseKey : group.baseKey ≠ []
  endpoint : group.endpoint ≠ []
  conversationKey : group.conversationKey ≠ []
  sender : group.sender ≠ []
  items : group.items ≠ []
  item : ∀ item ∈ group.items, ItemWellFormed item

structure Clean (groups : List (PendingMessageGroup D)) (delivered : List Identity) : Prop where
  wellFormed : ∀ g ∈ groups, WellFormed g
  once : ∀ g ∈ groups, ∀ g' ∈ groups, ∀ i, g.holds i = true → g'.holds i = true → g.key = g'.key
  fresh : ∀ g ∈ groups, ∀ i, g.holds i = true → i ∉ delivered
  nodup : delivered.Nodup
  nonempty : ∀ i ∈ delivered, i ≠ []

def Keyed (m : InsertionMap JsString (PendingMessageGroup D)) : Prop :=
  ∀ k g, m.get? k = some g → g.key = k

theorem Keyed.get? {m : InsertionMap JsString (PendingMessageGroup D)} (h : Keyed m)
    {g : PendingMessageGroup D} : g ∈ m.values ↔ m.get? g.key = some g := by
  rw [InsertionMap.mem_values]
  constructor
  · rintro ⟨k, hk⟩
    rwa [h k g hk]
  · exact fun hg => ⟨g.key, hg⟩

theorem Keyed.set {m : InsertionMap JsString (PendingMessageGroup D)} (h : Keyed m)
    (g : PendingMessageGroup D) : Keyed (m.set g.key g) := by
  intro k g' hk
  rw [InsertionMap.get?_set] at hk
  split at hk
  case isTrue hkey => rw [← Option.some.inj hk, hkey]
  case isFalse => exact h k g' hk

theorem Keyed.erase {m : InsertionMap JsString (PendingMessageGroup D)} (h : Keyed m)
    (k : JsString) : Keyed (m.erase k) := by
  intro j g hj
  rw [InsertionMap.get?_erase] at hj
  split at hj
  case isTrue => cases hj
  case isFalse => exact h j g hj

theorem Keyed.distinct {m : InsertionMap JsString (PendingMessageGroup D)} (h : Keyed m) :
    (m.values.map (·.key)).Nodup := by
  have hkeys : m.values.map (·.key) = m.entries.map Prod.fst := by
    unfold InsertionMap.values
    rw [List.map_map]
    refine List.map_congr_left fun e he => ?_
    exact h e.1 e.2 (InsertionMap.get?_eq_some.mpr he)
  rw [hkeys]
  exact m.nodup

theorem Keyed.mem_set {m : InsertionMap JsString (PendingMessageGroup D)} (h : Keyed m) {g g' : PendingMessageGroup D} :
    g' ∈ (m.set g.key g).values ↔ g' = g ∨ (g' ∈ m.values ∧ g'.key ≠ g.key) := by
  rw [(h.set g).get?, InsertionMap.get?_set]
  split
  case isTrue hkey =>
    rw [Option.some.injEq]
    exact ⟨fun he => .inl he.symm, fun hor => hor.elim Eq.symm fun hne => absurd hkey hne.2⟩
  case isFalse hkey =>
    rw [← h.get?]
    refine ⟨fun hg => .inr ⟨hg, hkey⟩, fun hor => hor.elim ?_ And.left⟩
    rintro rfl
    exact absurd rfl hkey

/-- A group is put in place of the one of its key, or as a new one. -/
theorem Clean.set {m : InsertionMap JsString (PendingMessageGroup D)} {delivered : List Identity} (h : Clean m.values
    delivered) (hkeyed : Keyed m) {g : PendingMessageGroup D} (hg : WellFormed g) (hfresh : ∀ i, g.holds i = true → i ∉
    delivered) (hothers : ∀ g' ∈ m.values, g'.key ≠ g.key → ∀ i, g'.holds i = true → g.holds i = false) : Clean (m.set
    g.key g).values delivered := by
  refine ⟨fun g' hg' => ?_, fun g₁ h₁ g₂ h₂ i hi₁ hi₂ => ?_, fun g' hg' i hi => ?_, h.nodup, h.nonempty⟩
  · rcases hkeyed.mem_set.mp hg' with rfl | ⟨hold, -⟩
    · exact hg
    · exact h.wellFormed g' hold
  · rcases hkeyed.mem_set.mp h₁ with rfl | ⟨hold₁, hne₁⟩ <;>
      rcases hkeyed.mem_set.mp h₂ with rfl | ⟨hold₂, hne₂⟩
    · rfl
    · simp [hothers g₂ hold₂ hne₂ i hi₂] at hi₁
    · simp [hothers g₁ hold₁ hne₁ i hi₁] at hi₂
    · exact h.once g₁ hold₁ g₂ hold₂ i hi₁ hi₂
  · rcases hkeyed.mem_set.mp hg' with rfl | ⟨hold, -⟩
    · exact hfresh i hi
    · exact h.fresh g' hold i hi

theorem Clean.subset {groups groups' : List (PendingMessageGroup D)} {delivered : List Identity}
    (h : Clean groups delivered) (hsub : ∀ g ∈ groups', g ∈ groups) : Clean groups' delivered :=
  ⟨fun g hg => h.wellFormed g (hsub g hg), fun g hg g' hg' => h.once g (hsub g hg) g' (hsub g' hg'),
    fun g hg => h.fresh g (hsub g hg), h.nodup, h.nonempty⟩

/-- Identities that no group holds any more are delivered. -/
theorem Clean.deliver {groups : List (PendingMessageGroup D)} {delivered ids : List Identity}
    (h : Clean groups delivered) (hfree : ∀ g ∈ groups, ∀ i ∈ ids, g.holds i = false)
    (hnonempty : ∀ i ∈ ids, i ≠ []) : Clean groups (evict (ids.foldl addIdentity delivered)) := by
  have hall : ∀ i ∈ ids.foldl addIdentity delivered, i ≠ [] := by
    intro i hi
    exact (mem_foldl_addIdentity.mp hi).elim (h.nonempty i) (hnonempty i)
  rw [evict_eq_takeLast hall]
  have hsub := takeLast_sublist maxMessageGroupDeliveredIdentities (ids.foldl addIdentity delivered)
  refine ⟨h.wellFormed, h.once, fun g hg i hi hdelivered => ?_,
    (nodup_foldl_addIdentity h.nodup).sublist hsub, fun i hi => hall i (hsub.subset hi)⟩
  rcases mem_foldl_addIdentity.mp (hsub.subset hdelivered) with hold | hnew
  · exact h.fresh g hg i hi hold
  · simp [hfree g hg i hnew] at hi

/-! ## The invariant -/

structure Memory (s : QueueState D) : Prop where
  keyed : Keyed s.groups
  clean : Clean s.groups.values s.deliveredIdentities
  recent : s.deliveredIdentities = takeLast maxMessageGroupDeliveredIdentities s.resolved
  owed : ∀ i, s.owed i = true → ∃ g ∈ s.groups.values, g.holds i = true
  flights : ∀ f ∈ s.flights, f.identities.Nodup ∧ ∃ g, s.groups.get? f.key = some g ∧
    g.status = .delivering ∧ ∀ i ∈ f.identities, g.holds i = true

structure StateFile (s : QueueState D) (file : MessageGroupingState D) : Prop where
  clean : Clean file.pending file.deliveredIdentities
  distinct : (file.pending.map (·.key)).Nodup
  recent : file.deliveredIdentities = takeLast maxMessageGroupDeliveredIdentities s.persisted
  owed : ∀ i, s.owed i = true → ∃ g ∈ file.pending, g.holds i = true

structure Inv (s : QueueState D) : Prop where
  memory : Memory s
  file : ∀ file, s.disk = some file → StateFile s file
  noFile : s.disk = none → s.persisted = [] ∧ ∀ i, s.owed i = false

theorem inv_persist {s : QueueState D} (h : Memory s) : Inv s.persist := by
  refine ⟨⟨h.keyed, h.clean, h.recent, h.owed, h.flights⟩, fun file hfile => ?_, fun hnone => by cases hnone⟩
  obtain rfl := Option.some.inj hfile
  exact ⟨h.clean, h.keyed.distinct, h.recent, h.owed⟩

/-- Without a write the old state file stays, and it may hold more than is owed. -/
theorem Inv.unwritten {s s' : QueueState D} (h : Inv s) (hmemory : Memory s') (hdisk : s'.disk = s.disk) (hpersisted :
    s'.persisted = s.persisted) (howed : ∀ i, s'.owed i = true → s.owed i = true) : Inv s' := by
  refine ⟨hmemory, fun file hfile => ?_, fun hnone => ?_⟩
  · obtain ⟨hclean, hdistinct, hrecent, hold⟩ := h.file file (hdisk ▸ hfile)
    exact ⟨hclean, hdistinct, by rw [hpersisted, hrecent], fun i hi => hold i (howed i hi)⟩
  · obtain ⟨hempty, hold⟩ := h.noFile (hdisk ▸ hnone)
    refine ⟨hpersisted.trans hempty, fun i => ?_⟩
    by_contra hi
    have hi' := howed i (by simpa using hi)
    simp [hold i] at hi'

theorem inv_initial : Inv (initial : QueueState D) := by
  refine ⟨⟨(fun _ _ hk => by cases hk), ⟨?_, ?_, ?_, List.nodup_nil, ?_⟩, ?_, ?_, ?_⟩, ?_, ?_⟩ <;>
    simp [initial, InsertionMap.values, InsertionMap.empty, takeLast]

/-! ## Putting a group back -/

/-- A group takes the place of the one of its key: what it holds has been held or is new. -/
theorem Memory.setGroup {s : QueueState D} (h : Memory s) {g old : PendingMessageGroup D} (hold : s.groups.get? g.key =
    some old) (hg : WellFormed g) (hsame : ∀ i, g.holds i = true ↔ old.holds i = true) (hstatus : g.status = old.status
    ∨ ∀ f ∈ s.flights, f.key ≠ g.key) : Memory (s.setGroup g) := by
  have hmem : old ∈ s.groups.values := InsertionMap.mem_values.mpr ⟨g.key, hold⟩
  have hkey : old.key = g.key := h.keyed g.key old hold
  refine ⟨h.keyed.set g, h.clean.set h.keyed hg (fun i hi => h.clean.fresh old hmem i ((hsame i).mp hi))
    fun g' hg' hne i hi => ?_, h.recent, fun i hi => ?_, fun f hf => ?_⟩
  · by_contra hholds
    have hi' : old.holds i = true := (hsame i).mp (by simpa using hholds)
    exact hne ((h.clean.once g' hg' old hmem i hi hi').trans hkey)
  · obtain ⟨g', hg', hi'⟩ := h.owed i hi
    by_cases hk : g'.key = g.key
    · have heq : g' = old := by
        have := h.keyed.get?.mp hg'
        rw [hk, hold] at this
        exact (Option.some.inj this).symm
      exact ⟨g, h.keyed.mem_set.mpr (.inl rfl), (hsame i).mpr (heq ▸ hi')⟩
    · exact ⟨g', h.keyed.mem_set.mpr (.inr ⟨hg', hk⟩), hi'⟩
  · obtain ⟨hnodup, g', hg', hdelivering, hids⟩ := h.flights f hf
    refine ⟨hnodup, ?_⟩
    by_cases hk : f.key = g.key
    · obtain rfl : old = g' := Option.some.inj (hold.symm.trans (hk ▸ hg'))
      have hgstatus : g.status = .delivering := (hstatus.resolve_right fun hnone => hnone f hf hk).trans hdelivering
      exact ⟨g, by simp [QueueState.setGroup, hk], hgstatus, fun i hi => (hsame i).mpr (hids i hi)⟩
    · exact ⟨g', (InsertionMap.get?_set_of_ne hk).trans hg', hdelivering, hids⟩

theorem Memory.land {s : QueueState D} (h : Memory s) (key : JsString) : Memory (s.land key) :=
  ⟨h.keyed, h.clean, h.recent, h.owed, fun f hf => h.flights f (List.mem_filter.mp hf).1⟩

theorem Memory.timers {s : QueueState D} (h : Memory s) (timers : List JsString) :
    Memory { s with timers } :=
  ⟨h.keyed, h.clean, h.recent, h.owed, h.flights⟩

theorem Inv.timers {s : QueueState D} (h : Inv s) (timers : List JsString) :
    Inv { s with timers } :=
  h.unwritten (h.memory.timers timers) rfl rfl fun _ hi => hi

theorem land_flights {s : QueueState D} {key : JsString} : ∀ f ∈ (s.land key).flights, f.key ≠ key := by
  intro f hf
  simpa using (List.mem_filter.mp hf).2

/-! ## Joining a group -/

theorem wellFormed_push {group : PendingMessageGroup D} {input : EnqueueMessageGroupInput D}
    {now : Time} (hid : input.identity ≠ []) (hkind : input.payload.routeKind ≠ [])
    (hgroup : group.items ≠ [] → WellFormed group)
    (hnew : group.items = [] → group.groupId ≠ [] ∧ group.key ≠ [] ∧ group.baseKey ≠ [] ∧
      group.endpoint ≠ [] ∧ group.conversationKey ≠ [] ∧ group.sender ≠ []) :
    WellFormed (group.push input now) := by
  have hfields : group.groupId ≠ [] ∧ group.key ≠ [] ∧ group.baseKey ≠ [] ∧
      group.endpoint ≠ [] ∧ group.conversationKey ≠ [] ∧ group.sender ≠ [] := by
    by_cases hempty : group.items = []
    · exact hnew hempty
    · have hwf := hgroup hempty
      exact ⟨hwf.groupId, hwf.key, hwf.baseKey, hwf.endpoint, hwf.conversationKey, hwf.sender⟩
  obtain ⟨h₁, h₂, h₃, h₄, h₅, h₆⟩ := hfields
  refine ⟨h₁, h₂, h₃, h₄, h₅, h₆, by simp [PendingMessageGroup.push], fun item hitem => ?_⟩
  rcases List.mem_append.mp hitem with hold | hlast
  · exact (hgroup (List.ne_nil_of_mem hold)).item item hold
  · rw [List.mem_singleton.mp hlast]
    exact ⟨hid, hkind⟩

theorem holds_push {group : PendingMessageGroup D} {input : EnqueueMessageGroupInput D} {now : Time} {i : Identity} :
    (group.push input now).holds i = true ↔ group.holds i = true ∨ i = input.identity := by
  rw [holds_iff, holds_iff]
  show (∃ item ∈ group.items ++ [_], item.identity = i) ↔ _
  constructor
  · rintro ⟨item, hitem, rfl⟩
    rcases List.mem_append.mp hitem with hold | hlast
    · exact .inl ⟨item, hold, rfl⟩
    · exact .inr (by rw [List.mem_singleton.mp hlast])
  · rintro (⟨item, hitem, rfl⟩ | rfl)
    · exact ⟨item, List.mem_append_left _ hitem, rfl⟩
    · exact ⟨_, List.mem_append_right _ (List.mem_singleton.mpr rfl), rfl⟩

theorem existing_mem {s : QueueState D} {input : EnqueueMessageGroupInput D} {group : PendingMessageGroup D} (h :
    s.existing input = some group) : group ∈ s.groups.values := by
  unfold QueueState.existing at h
  rcases Option.or_eq_some_iff.mp h with hkey | ⟨-, hbase⟩
  · exact InsertionMap.mem_values.mpr ⟨_, hkey⟩
  · split at hbase
    case h_2 => cases hbase
    case h_1 group' hsingle =>
      obtain rfl := Option.some.inj hbase
      have hmem : group' ∈ s.baseCandidates input := by rw [hsingle]; exact List.mem_singleton.mpr rfl
      unfold QueueState.baseCandidates at hmem
      split at hmem
      case isTrue => cases hmem
      case isFalse => exact (List.mem_filter.mp hmem).1

/-- No group but the one that the input joins holds its identity. -/
def SelectsHolder (input : EnqueueMessageGroupInput D) (s : QueueState D) : Prop :=
  ∀ g ∈ s.groups.values, g.holds input.identity = true → s.existing input = some g

structure InputWellFormed (input : EnqueueMessageGroupInput D) : Prop where
  key : input.key ≠ []
  baseKey : input.baseKey ≠ []
  endpoint : input.endpoint ≠ []
  conversationKey : input.conversationKey ≠ []
  sender : input.sender ≠ []
  identity : input.identity ≠ []
  routeKind : input.payload.routeKind ≠ []

theorem stableIdentity_ne_nil {lookups : ForwardLookups D} {endpoint conversationKey : JsString} {record : ForwardRecord
    D} (h : endpoint ≠ []) : stableIdentity lookups endpoint conversationKey record ≠ [] := by
  unfold stableIdentity
  dsimp only
  split <;> simp [h]

theorem inputWellFormed {lookups : ForwardLookups D} {routeKind : JsString} {record : ForwardRecord D} {extraValues : D}
    {policy : MessageGroupingPolicy} {input : EnqueueMessageGroupInput D} (h : messageGroupEnqueueInputForForward
    lookups routeKind record extraValues policy = some input) : InputWellFormed input := by
  unfold messageGroupEnqueueInputForForward at h
  split at h
  case isTrue => cases h
  case isFalse hkind =>
    have hkind : routeKind ∈ conversationalRouteKinds := by
      by_contra hnot
      exact hkind (.inr hnot)
    split at h
    case h_1 => cases h
    case h_2 scope _ =>
      split at h
      case h_2 => cases h
      case h_1 endpoint senderKey _ _ =>
        split at h
        case isTrue => cases h
        case isFalse hfields =>
          obtain rfl := Option.some.inj h
          simp only [not_or] at hfields
          obtain ⟨hendpoint, hconversation, hsender⟩ := hfields
          refine ⟨by simp [scopedInput, hendpoint], by simp [scopedInput, hendpoint], hendpoint,
            hconversation, ?_, stableIdentity_ne_nil hendpoint, ?_⟩
          · unfold scopedInput
            dsimp only
            generalize JsString.trim _ = sender
            split
            case isTrue => decide +kernel
            case isFalse hne => exact hne
          · rintro hnil
            have hroute : routeKind = [] := hnil
            rw [hroute] at hkind
            exact absurd hkind (by decide +kernel)

theorem newGroup_wellFormed {input : EnqueueMessageGroupInput D} {uuid : JsString} {now : Time}
    (h : InputWellFormed input) :
    WellFormed ((newGroup input (js "message-group-" ++ uuid) now).push input now) :=
  wellFormed_push h.identity h.routeKind (fun hitems => absurd rfl hitems)
    fun _ => ⟨by simp [newGroup, js, codeUnits], h.key, h.baseKey, h.endpoint, h.conversationKey, h.sender⟩

/-- A group that does not hold the identity takes it, and no other group does. -/
theorem Memory.join {s : QueueState D} (h : Memory s) {group : PendingMessageGroup D}
    {input : EnqueueMessageGroupInput D} {now : Time}
    (hold : ∀ g, s.groups.get? group.key = some g → g = group)
    (hnew : s.groups.get? group.key = none → group.items = [])
    (hwf : WellFormed (group.push input now)) (hfree : ∀ g ∈ s.groups.values,
      g.holds input.identity = false) (hundelivered : input.identity ∉ s.deliveredIdentities) :
    Memory (s.setGroup (group.push input now)) := by
  have hkey : (group.push input now).key = group.key := rfl
  have hheld : ∀ g ∈ s.groups.values, g.key = group.key → g = group := by
    intro g hg hk
    exact hold g (hk ▸ h.keyed.get?.mp hg)
  refine ⟨h.keyed.set _, h.clean.set h.keyed hwf (fun i hi => ?_) (fun g' hg' hne i hi => ?_), h.recent,
    fun i hi => ?_, fun f hf => ?_⟩
  · rcases holds_push.mp hi with hi | rfl
    · cases hcase : s.groups.get? group.key with
      | none => simp [PendingMessageGroup.holds, hnew hcase] at hi
      | some g =>
        obtain rfl := hold g hcase
        exact h.clean.fresh g (InsertionMap.mem_values.mpr ⟨_, hcase⟩) i hi
    · exact hundelivered
  · by_contra hholds
    have hholds : (group.push input now).holds i = true := by simpa using hholds
    rcases holds_push.mp hholds with hi' | rfl
    · cases hcase : s.groups.get? group.key with
      | none => simp [PendingMessageGroup.holds, hnew hcase] at hi'
      | some g =>
        obtain rfl := hold g hcase
        exact hne (h.clean.once g' hg' g (InsertionMap.mem_values.mpr ⟨_, hcase⟩) i hi hi')
    · simp [hfree g' hg'] at hi
  · obtain ⟨g, hg, hi'⟩ := h.owed i hi
    by_cases hk : g.key = group.key
    · refine ⟨group.push input now, h.keyed.mem_set.mpr (.inl rfl), holds_push.mpr (.inl ?_)⟩
      exact hheld g hg hk ▸ hi'
    · exact ⟨g, h.keyed.mem_set.mpr (.inr ⟨hg, hk⟩), hi'⟩
  · obtain ⟨hnodup, g, hg, hdelivering, hids⟩ := h.flights f hf
    refine ⟨hnodup, ?_⟩
    by_cases hk : f.key = group.key
    · obtain rfl : g = group := hold g (hk ▸ hg)
      exact ⟨g.push input now, by simp [QueueState.setGroup, hk, hkey], hdelivering,
        fun i hi => holds_push.mpr (.inl (hids i hi))⟩
    · exact ⟨g, (InsertionMap.get?_set_of_ne hk).trans hg, hdelivering, hids⟩

/-- What an enqueue that is not refused does, when it joins the only holder of its identity. -/
theorem inv_join {s : QueueState D} (h : Inv s) {group : PendingMessageGroup D} {input : EnqueueMessageGroupInput D}
    {now : Time} {persists : Bool} (hmemory : Memory (s.setGroup (group.push input now))) : Inv (enqueue.join input now
    persists s group).2 := by
  unfold enqueue.join
  cases persists with
  | false => exact h.unwritten hmemory rfl rfl fun _ hi => hi
  | true =>
    -- the new debt is one that the group holds when the state file is written
    have howed : Memory { s.setGroup (group.push input now) with
        owed := fun i => if i = input.identity then true else s.owed i } := by
      refine ⟨hmemory.keyed, hmemory.clean, hmemory.recent, fun i hi => ?_, hmemory.flights⟩
      by_cases hid : i = input.identity
      · exact ⟨group.push input now, InsertionMap.mem_values.mpr ⟨_, InsertionMap.get?_set_self⟩,
          holds_push.mpr (.inr hid)⟩
      · change (if i = input.identity then true else s.owed i) = true at hi
        rw [if_neg hid] at hi
        exact hmemory.owed i hi
    have hinv := inv_persist howed
    simp only [if_true]
    split
    · exact hinv
    · exact hinv.timers _

theorem inv_enqueue {s : QueueState D} (h : Inv s) {input : EnqueueMessageGroupInput D} {now : Time}
    {uuid : JsString} {persists : Bool} (hinput : InputWellFormed input)
    (hselects : SelectsHolder input s) : Inv (enqueue input now uuid persists s).2 := by
  unfold enqueue
  split
  case isTrue => exact h
  case isFalse hundelivered =>
    split
    case h_1 group hexisting =>
      split
      case isTrue => exact h
      case isFalse hnot =>
        have hmem := existing_mem hexisting
        have hget := h.memory.keyed.get?.mp hmem
        refine inv_join h (h.memory.join (fun g hg => Option.some.inj (hg.symm.trans hget))
          (fun hnone => by simp [hget] at hnone) ?_ (fun g hg => ?_) hundelivered)
        · have hwf := h.memory.clean.wellFormed group hmem
          exact wellFormed_push hinput.identity hinput.routeKind (fun _ => hwf)
            fun hempty => absurd hempty hwf.items
        · by_contra hholds
          have hsel := hselects g hg (by simpa using hholds)
          obtain rfl : group = g := Option.some.inj (hexisting.symm.trans hsel)
          exact hnot (by simpa using hholds)
    case h_2 hnone =>
      have hget : s.groups.get? input.key = none := by
        unfold QueueState.existing at hnone
        exact (Option.or_eq_none_iff.mp hnone).1
      refine inv_join h (h.memory.join (fun g hg => ?_) (fun _ => rfl) (newGroup_wellFormed hinput)
        (fun g hg => ?_) hundelivered)
      · rw [show (newGroup input (js "message-group-" ++ uuid) now).key = input.key from rfl, hget] at hg
        cases hg
      · by_contra hholds
        have hsel := hselects g hg (by simpa using hholds)
        simp [hnone] at hsel

/-! ## Delivering a group -/

theorem WellFormed.status {g g' : PendingMessageGroup D} (h : WellFormed g)
    (hsame : g' = { g with
      status := g'.status, attempts := g'.attempts, lastError := g'.lastError,
      createdAt := g'.createdAt, deadlineAt := g'.deadlineAt, maxDeadlineAt := g'.maxDeadlineAt }) :
    WellFormed g' := by
  rw [hsame]
  exact ⟨h.groupId, h.key, h.baseKey, h.endpoint, h.conversationKey, h.sender, h.items, h.item⟩

/-- A group of the map whose identity-free fields change. -/
theorem Memory.setStatus {s : QueueState D} (h : Memory s) {key : JsString}
    {g g' : PendingMessageGroup D} (hg : s.groups.get? key = some g)
    (hsame : g' = { g with
      status := g'.status, attempts := g'.attempts, lastError := g'.lastError,
      createdAt := g'.createdAt, deadlineAt := g'.deadlineAt, maxDeadlineAt := g'.maxDeadlineAt })
    (hstatus : g'.status = g.status ∨ ∀ f ∈ s.flights, f.key ≠ g'.key) : Memory (s.setGroup g') := by
  have hkey : g'.key = key := by
    rw [hsame]
    exact h.keyed key g hg
  have hwf := h.clean.wellFormed g (InsertionMap.mem_values.mpr ⟨key, hg⟩)
  refine h.setGroup (hkey ▸ hg) (hwf.status hsame) (fun i => ?_) hstatus
  rw [hsame]
  rfl

theorem Memory.free_of_pending {s : QueueState D} (h : Memory s) {key : JsString} {g : PendingMessageGroup D} (hg :
    s.groups.get? key = some g) (hpending : g.status ≠ .delivering) : ∀ f ∈ s.flights, f.key ≠ g.key := by
  intro f hf hk
  obtain ⟨-, g', hg', hdelivering, -⟩ := h.flights f hf
  rw [hk, h.keyed key g hg, hg] at hg'
  exact hpending (Option.some.inj hg' ▸ hdelivering)

/-- The identities of the call that `flushNow` makes are those of the group. -/
theorem mem_identities {group : PendingMessageGroup D} {i : Identity} :
    i ∈ (group.items.map (·.identity)).foldl addIdentity [] ↔ group.holds i = true := by
  rw [mem_foldl_addIdentity, holds_iff]
  simp

theorem inv_flushNow {s : QueueState D} (h : Inv s) (key : JsString) (persists : Bool) :
    Inv (flushNow key persists s).2 := by
  unfold flushNow
  split
  case h_1 => exact h
  case h_2 group hgroup =>
    split
    case isTrue => exact h
    case isFalse hpending =>
      have hdisarmed : Memory (s.disarm key) := h.memory.timers _
      have hfree : ∀ f ∈ s.flights, f.key ≠ group.key := h.memory.free_of_pending hgroup hpending
      have hmemory : Memory ((s.disarm key).setGroup { group with
          status := .delivering, attempts := group.attempts + 1, lastError := none }) :=
        hdisarmed.setStatus hgroup rfl (.inr hfree)
      dsimp only
      split
      case isFalse => exact h.unwritten hmemory rfl rfl fun _ hi => hi
      case isTrue =>
        have hinv := inv_persist hmemory
        refine hinv.unwritten ⟨hinv.memory.keyed, hinv.memory.clean, hinv.memory.recent,
          hinv.memory.owed, fun f hf => ?_⟩ rfl rfl fun _ hi => hi
        rcases List.mem_append.mp hf with hold | hnew
        · exact hmemory.flights f hold
        · obtain rfl := List.mem_singleton.mp hnew
          refine ⟨nodup_foldl_addIdentity List.nodup_nil, { group with
            status := .delivering, attempts := group.attempts + 1, lastError := none }, ?_, rfl,
            fun i hi => mem_identities.mp hi⟩
          have hkey := h.memory.keyed key group hgroup
          show (s.groups.set group.key _).get? key = _
          rw [hkey, InsertionMap.get?_set_self]

theorem inv_retain {s : QueueState D} (h : Inv s) {key error : JsString} {now : Time} {persists : Bool} (hlanded : ∀ f ∈
    s.flights, f.key ≠ key) : Inv (retain key error now persists s).2 := by
  have hflat : ∀ s' : QueueState D, Memory s' → s'.disk = s.disk → s'.persisted = s.persisted →
      s'.owed = s.owed →
      Inv (if persists then (Answer.retained, s'.persist.arm key) else (Answer.failed, s')).2 := by
    intro s' hs' hdisk hpersisted howed
    split
    · exact (inv_persist hs').timers _
    · exact h.unwritten hs' hdisk hpersisted fun i hi => howed ▸ hi
  unfold retain
  cases hget : s.groups.get? key with
  | none => exact hflat s h.memory rfl rfl rfl
  | some group =>
    refine hflat _ (h.memory.setStatus hget rfl (.inr fun f hf hk => hlanded f hf ?_)) rfl rfl rfl
    exact hk.trans (h.memory.keyed key group hget)

/-- A delivery that has resolved takes its identities out of their group. -/
theorem memory_finish {s : QueueState D} (h : Memory s) {flight : Flight} {group : PendingMessageGroup D} (hnodup :
    flight.identities.Nodup) (hgroup : s.groups.get? flight.key = some group) (hids : ∀ i ∈ flight.identities,
    group.holds i = true) (hlanded : ∀ f ∈ s.flights, f.key ≠ flight.key) : Memory (finish flight group s) := by
  have hmem : group ∈ s.groups.values := InsertionMap.mem_values.mpr ⟨_, hgroup⟩
  have hkey : group.key = flight.key := h.keyed _ _ hgroup
  have hwf := h.clean.wellFormed group hmem
  have hnew : ∀ i ∈ flight.identities, i ∉ s.deliveredIdentities := fun i hi =>
    h.clean.fresh group hmem i (hids i hi)
  have hnonempty : ∀ i ∈ flight.identities, i ≠ [] := by
    intro i hi
    obtain ⟨item, hitem, rfl⟩ := holds_iff.mp (hids i hi)
    exact (hwf.item item hitem).identity
  -- the groups of the other keys hold none of the identities
  have hothers : ∀ g ∈ s.groups.values, g.key ≠ flight.key → ∀ i ∈ flight.identities,
      g.holds i = false := by
    intro g hg hne i hi
    by_contra hholds
    exact hne ((h.clean.once g hg group hmem i (by simpa using hholds) (hids i hi)).trans hkey)
  have hrecent : evict (flight.identities.foldl addIdentity s.deliveredIdentities) =
      takeLast maxMessageGroupDeliveredIdentities (s.resolved ++ flight.identities) := by
    have hall : ∀ i ∈ flight.identities.foldl addIdentity s.deliveredIdentities, i ≠ [] := by
      intro i hi
      exact (mem_foldl_addIdentity.mp hi).elim (h.clean.nonempty i) (hnonempty i)
    rw [evict_eq_takeLast hall, foldl_addIdentity hnodup hnew, h.recent, takeLast_append]
  have howed : ∀ i, (s.owed i && decide (i ∉ flight.identities)) = true →
      s.owed i = true ∧ i ∉ flight.identities := by
    intro i hi
    simpa using hi
  have hflights : ∀ f ∈ s.flights, f.identities.Nodup ∧ f.key ≠ flight.key ∧
      ∃ g, s.groups.get? f.key = some g ∧ g.status = .delivering ∧
        ∀ i ∈ f.identities, g.holds i = true := fun f hf =>
    ⟨(h.flights f hf).1, hlanded f hf, (h.flights f hf).2⟩
  unfold finish
  dsimp only
  split
  case h_1 hempty =>
    have hsub : ∀ g ∈ (s.groups.erase flight.key).values, g ∈ s.groups.values ∧ g.key ≠ flight.key := by
      intro g hg
      have hget := (h.keyed.erase flight.key).get?.mp hg
      rw [InsertionMap.get?_erase] at hget
      split at hget
      case isTrue => cases hget
      case isFalse hne => exact ⟨h.keyed.get?.mpr hget, hne⟩
    refine ⟨h.keyed.erase _, (h.clean.subset fun g hg => (hsub g hg).1).deliver
      (fun g hg => hothers g (hsub g hg).1 (hsub g hg).2) hnonempty, hrecent, fun i hi => ?_, fun f hf => ?_⟩
    · obtain ⟨hold, hnot⟩ := howed i hi
      obtain ⟨g, hg, hholds⟩ := h.owed i hold
      have hne : g.key ≠ flight.key := by
        intro hk
        have hsame : g = group := by
          have := h.keyed.get?.mp hg
          rw [hk, hgroup] at this
          exact (Option.some.inj this).symm
        obtain ⟨item, hitem, rfl⟩ := holds_iff.mp (hsame ▸ hholds)
        have hin : item ∈ group.items.filter fun item => decide (item.identity ∉ flight.identities) :=
          List.mem_filter.mpr ⟨hitem, by simpa using hnot⟩
        rw [hempty] at hin
        cases hin
      refine ⟨g, (h.keyed.erase flight.key).get?.mpr ?_, hholds⟩
      rw [InsertionMap.get?_erase, if_neg hne]
      exact h.keyed.get?.mp hg
    · obtain ⟨hf₁, hne, g, hg, hf₂⟩ := hflights f hf
      refine ⟨hf₁, g, ?_, hf₂⟩
      show (s.groups.erase flight.key).get? f.key = some g
      rw [InsertionMap.get?_erase, if_neg hne]
      exact hg
  case h_2 first rest hitems =>
    generalize hg₁ : ({ group with
      items := group.items.filter fun item => decide (item.identity ∉ flight.identities)
      status := .pending
      attempts := 0
      lastError := none
      createdAt := first.receivedAt } : PendingMessageGroup D) = g₁
    have hkey₁ : g₁.key = flight.key := by rw [← hg₁]; exact hkey
    have hholds₁ : ∀ i, g₁.holds i = true ↔ group.holds i = true ∧ i ∉ flight.identities := by
      intro i
      rw [holds_iff, holds_iff, ← hg₁]
      constructor
      · rintro ⟨item, hitem, rfl⟩
        obtain ⟨hold, hnot⟩ := List.mem_filter.mp hitem
        exact ⟨⟨item, hold, rfl⟩, by simpa using hnot⟩
      · rintro ⟨⟨item, hitem, rfl⟩, hnot⟩
        exact ⟨item, List.mem_filter.mpr ⟨hitem, by simpa using hnot⟩, rfl⟩
    have hwf₁ : WellFormed g₁ := by
      rw [← hg₁]
      refine ⟨hwf.groupId, hwf.key, hwf.baseKey, hwf.endpoint, hwf.conversationKey, hwf.sender, ?_,
        fun item hitem => hwf.item item (List.mem_filter.mp hitem).1⟩
      intro hnil
      exact List.cons_ne_nil first rest (hitems.symm.trans hnil)
    have hset : Clean (s.groups.set g₁.key g₁).values s.deliveredIdentities := by
      refine h.clean.set h.keyed hwf₁ (fun i hi => h.clean.fresh group hmem i ((hholds₁ i).mp hi).1)
        fun g hg hne i hi => ?_
      by_contra hholds
      have hi' := ((hholds₁ i).mp (by simpa using hholds)).1
      exact hne ((h.clean.once g hg group hmem i hi hi').trans (hkey.trans hkey₁.symm))
    refine ⟨h.keyed.set g₁, hset.deliver (fun g hg i hi => ?_) hnonempty, hrecent, fun i hi => ?_,
      fun f hf => ?_⟩
    · rcases h.keyed.mem_set.mp hg with rfl | ⟨hold, hne⟩
      · by_contra hholds
        exact ((hholds₁ i).mp (by simpa using hholds)).2 hi
      · exact hothers g hold (hkey₁ ▸ hne) i hi
    · obtain ⟨hold, hnot⟩ := howed i hi
      obtain ⟨g, hg, hholds⟩ := h.owed i hold
      by_cases hk : g.key = flight.key
      · have hsame : g = group := by
          have := h.keyed.get?.mp hg
          rw [hk, hgroup] at this
          exact (Option.some.inj this).symm
        exact ⟨g₁, h.keyed.mem_set.mpr (.inl rfl), (hholds₁ i).mpr ⟨hsame ▸ hholds, hnot⟩⟩
      · exact ⟨g, h.keyed.mem_set.mpr (.inr ⟨hg, hkey₁ ▸ hk⟩), hholds⟩
    · obtain ⟨hf₁, hne, g, hg, hf₂⟩ := hflights f hf
      refine ⟨hf₁, g, ?_, hf₂⟩
      show (s.groups.set g₁.key g₁).get? f.key = some g
      rw [hkey₁, InsertionMap.get?_set_of_ne hne]
      exact hg

theorem finish_disk (flight : Flight) (group : PendingMessageGroup D) (s : QueueState D) :
    (finish flight group s).disk = s.disk ∧ (finish flight group s).persisted = s.persisted ∧
      (finish flight group s).flights = s.flights ∧
      ∀ i, (finish flight group s).owed i = true → s.owed i = true := by
  unfold finish
  dsimp only
  split <;> refine ⟨rfl, rfl, rfl, fun i hi => ?_⟩ <;> exact ((Bool.and_eq_true _ _).mp hi).1

theorem inv_resolve {s : QueueState D} (h : Inv s) {flight : Flight} {now : Time} {persists persists' : Bool} (hflight :
    flight ∈ s.flights) : Inv (resolve flight now persists persists' s).2 := by
  obtain ⟨hnodup, group, hgroup, -, hids⟩ := h.memory.flights flight hflight
  have hlanded := memory_finish (h.memory.land flight.key) hnodup hgroup hids land_flights
  obtain ⟨hdisk, hpersisted, hflights, howed⟩ := finish_disk flight group (s.land flight.key)
  unfold resolve
  rw [hgroup]
  dsimp only
  split
  · exact inv_persist hlanded
  · refine inv_retain (h.unwritten hlanded hdisk hpersisted howed) fun f hf => ?_
    rw [hflights] at hf
    exact land_flights f hf

/-! ## Restarting -/

theorem normalizeGroup_eq {g : PendingMessageGroup D} (h : WellFormed g) :
    ∃ g', normalizeGroup g = some g' ∧ g'.key = g.key ∧ g'.items = g.items ∧ WellFormed g' := by
  have hitems : g.items.filterMap normalizeItem = g.items := by
    have hsome : ∀ item ∈ g.items, normalizeItem item = some item := by
      intro item hitem
      have hwf := h.item item hitem
      unfold normalizeItem
      rw [if_neg]
      rintro (hid | hkind)
      · exact hwf.identity hid
      · exact hwf.routeKind hkind
    rw [List.filterMap_congr hsome, List.filterMap_some]
  unfold normalizeGroup
  dsimp only
  rw [hitems, if_neg]
  · exact ⟨_, rfl, rfl, rfl, ⟨h.groupId, h.key, h.baseKey, h.endpoint, h.conversationKey, h.sender, h.items, h.item⟩⟩
  · simp [h.groupId, h.key, h.baseKey, h.endpoint, h.conversationKey, h.sender, h.items]

/-- Loading groups of distinct keys keeps all of them. -/
theorem mem_loadGroups (groups : List (PendingMessageGroup D))
    (hdistinct : (groups.map (·.key)).Nodup) {m : InsertionMap JsString (PendingMessageGroup D)}
    (hm : Keyed m) (hnew : ∀ g ∈ m.values, g.key ∉ groups.map (·.key)) :
    Keyed (groups.foldl loadGroup m) ∧
      ∀ g, g ∈ (groups.foldl loadGroup m).values ↔ g ∈ m.values ∨ g ∈ groups := by
  induction groups generalizing m with
  | nil => exact ⟨hm, fun g => by simp⟩
  | cons g₀ groups ih =>
    obtain ⟨hg₀, hdistinct⟩ := List.nodup_cons.mp hdistinct
    have hmem : ∀ g, g ∈ (loadGroup m g₀).values ↔ g = g₀ ∨ g ∈ m.values := by
      intro g
      rw [loadGroup, hm.mem_set]
      refine or_congr_right ⟨And.left, fun hg => ⟨hg, fun hk => ?_⟩⟩
      exact hnew g hg (by simp [hk])
    obtain ⟨hkeyed, hvalues⟩ := ih hdistinct (hm.set g₀) fun g hg => by
      rcases (hmem g).mp hg with rfl | hold
      · exact hg₀
      · exact fun hk => hnew g hold (List.mem_cons_of_mem _ hk)
    refine ⟨hkeyed, fun g => (hvalues g).trans ?_⟩
    rw [show m.set g₀.key g₀ = loadGroup m g₀ from rfl, hmem, List.mem_cons, or_assoc, or_left_comm]

/-- The groups that are read back are those that were written, up to their status. -/
theorem mem_readState {file : MessageGroupingState D} (h : ∀ g ∈ file.pending, WellFormed g) :
    (∀ g' ∈ (readState file).pending, WellFormed g' ∧
      ∃ g ∈ file.pending, g'.key = g.key ∧ ∀ i, g'.holds i = g.holds i) ∧
    (∀ g ∈ file.pending, ∃ g' ∈ (readState file).pending, ∀ i, g'.holds i = g.holds i) ∧
    (readState file).pending.map (·.key) = file.pending.map (·.key) := by
  refine ⟨fun g' hg' => ?_, fun g hg => ?_, ?_⟩
  · obtain ⟨g, hg, hnorm⟩ := List.mem_filterMap.mp hg'
    obtain ⟨g'', heq, hkey, hitems, hwf⟩ := normalizeGroup_eq (h g hg)
    obtain rfl : g'' = g' := Option.some.inj (heq.symm.trans hnorm)
    exact ⟨hwf, g, hg, hkey, fun i => by simp only [PendingMessageGroup.holds, hitems]⟩
  · obtain ⟨g', heq, -, hitems, -⟩ := normalizeGroup_eq (h g hg)
    exact ⟨g', List.mem_filterMap.mpr ⟨g, hg, heq⟩, fun i => by
      simp only [PendingMessageGroup.holds, hitems]⟩
  · unfold readState
    generalize file.pending = groups at h
    induction groups with
    | nil => rfl
    | cons g groups ih =>
      obtain ⟨g', heq, hkey, -, -⟩ := normalizeGroup_eq (h g List.mem_cons_self)
      have hrest := ih fun g hg => h g (List.mem_cons_of_mem _ hg)
      dsimp only at hrest ⊢
      rw [List.filterMap_cons_some heq, List.map_cons, List.map_cons, hkey, hrest]

theorem inv_restart {s : QueueState D} (h : Inv s) : Inv (restart s) := by
  have hdisk : (restart s).disk = s.disk := rfl
  cases hfile : s.disk with
  | none =>
    obtain ⟨hempty, howed⟩ := h.noFile hfile
    have hmemory : Memory (restart s) := by
      unfold restart
      rw [hfile, hempty]
      refine ⟨(fun _ _ hk => by cases hk), ⟨?_, ?_, ?_, List.nodup_nil, ?_⟩, ?_, fun i hi => ?_, ?_⟩
      all_goals try simp [InsertionMap.values, InsertionMap.empty, takeLast]
      simp [howed i] at hi
    exact h.unwritten hmemory rfl rfl fun _ hi => hi
  | some file =>
    obtain ⟨hclean, hdistinct, hrecent, howed⟩ := h.file file hfile
    obtain ⟨hread, hkept, hkeys⟩ := mem_readState hclean.wellFormed
    have hnone : ∀ g : PendingMessageGroup D, g ∉ (InsertionMap.empty :
        InsertionMap JsString (PendingMessageGroup D)).values := by
      simp [InsertionMap.values, InsertionMap.empty]
    obtain ⟨hkeyed, hvalues⟩ := mem_loadGroups (readState file).pending (hkeys ▸ hdistinct)
      (m := .empty) (fun _ _ hk => by cases hk) fun g hg => absurd hg (hnone g)
    have hdelivered : (readState file).deliveredIdentities.foldl addIdentity [] =
        file.deliveredIdentities := by
      have hfilter : file.deliveredIdentities.filter (fun identity => decide (identity ≠ [])) =
          file.deliveredIdentities :=
        List.filter_eq_self.mpr fun i hi => by simpa using hclean.nonempty i hi
      have hshort : file.deliveredIdentities.length ≤ maxMessageGroupDeliveredIdentities := by
        rw [hrecent]
        exact length_takeLast_le _ _
      unfold readState
      dsimp only
      rw [hfilter, takeLast_of_length_le hshort, foldl_addIdentity hclean.nodup (by simp)]
      rfl
    have hmemory : Memory (restart s) := by
      unfold restart
      rw [hfile]
      simp only [Option.map_some, Option.getD_some, hdelivered]
      refine ⟨hkeyed, ⟨fun g hg => ?_, fun g hg g' hg' i hi hi' => ?_, fun g hg i hi => ?_, hclean.nodup,
        hclean.nonempty⟩, hrecent, fun i hi => ?_, (fun f hf => by cases hf)⟩
      · exact (hread g (((hvalues g).mp hg).resolve_left (hnone g))).1
      · obtain ⟨-, g₁, hg₁, hk₁, hholds₁⟩ := hread g (((hvalues g).mp hg).resolve_left (hnone g))
        obtain ⟨-, g₂, hg₂, hk₂, hholds₂⟩ := hread g' (((hvalues g').mp hg').resolve_left (hnone g'))
        rw [hk₁, hk₂]
        exact hclean.once g₁ hg₁ g₂ hg₂ i (hholds₁ i ▸ hi) (hholds₂ i ▸ hi')
      · obtain ⟨-, g₁, hg₁, -, hholds₁⟩ := hread g (((hvalues g).mp hg).resolve_left (hnone g))
        exact hclean.fresh g₁ hg₁ i (hholds₁ i ▸ hi)
      · obtain ⟨g, hg, hholds⟩ := howed i hi
        obtain ⟨g', hg', hsame⟩ := hkept g hg
        exact ⟨g', (hvalues g').mpr (.inr hg'), (hsame i).trans hholds⟩
    exact h.unwritten hmemory rfl rfl fun _ hi => hi

/-! ## Every event -/

/-- The condition of a run: each message that is enqueued joins the group that holds it, if any. -/
def JoinsHolder (lookups : ForwardLookups D) : Event D → QueueState D → Prop
  | .enqueue routeKind record extraValues policy _ _ _, s =>
    ∀ input, messageGroupEnqueueInputForForward lookups routeKind record extraValues policy =
      some input → SelectsHolder input s
  | _, _ => True

theorem inv_step {lookups : ForwardLookups D} {e : Event D} {s s' : QueueState D} {a : Answer}
    (h : Inv s) (hok : JoinsHolder lookups e s) (hstep : step lookups e s = some (a, s')) : Inv s' := by
  cases e with
  | enqueue routeKind record extraValues policy now uuid persists =>
    simp only [step] at hstep
    split at hstep
    case h_1 =>
      obtain ⟨-, rfl⟩ := Prod.mk.inj (Option.some.inj hstep)
      exact h
    case h_2 input hinput =>
      rw [← (Prod.mk.inj (Option.some.inj hstep)).2]
      exact inv_enqueue h (inputWellFormed hinput) (hok input hinput)
  | fire key persists =>
    simp only [step] at hstep
    split at hstep
    case isFalse => cases hstep
    case isTrue =>
      rw [← (Prod.mk.inj (Option.some.inj hstep)).2]
      exact inv_flushNow (h.timers _) key persists
  | flushNow key persists =>
    rw [← (Prod.mk.inj (Option.some.inj hstep)).2]
    exact inv_flushNow h key persists
  | resolve key now persists persists' =>
    obtain ⟨flight, hflight, hresult⟩ := Option.map_eq_some_iff.mp hstep
    rw [← (Prod.mk.inj hresult).2]
    exact inv_resolve h (List.mem_of_find?_eq_some hflight)
  | reject key error now persists =>
    obtain ⟨flight, hflight, hresult⟩ := Option.map_eq_some_iff.mp hstep
    rw [← (Prod.mk.inj hresult).2]
    exact inv_retain (h.unwritten (h.memory.land _) rfl rfl fun _ hi => hi) land_flights
  | close persists =>
    have hmemory : Memory { s with timers := [] } := h.memory.timers []
    rw [← (Prod.mk.inj (Option.some.inj hstep)).2]
    cases persists with
    | true => exact inv_persist hmemory
    | false => exact h.timers []
  | restart =>
    rw [← (Prod.mk.inj (Option.some.inj hstep)).2]
    exact inv_restart h

end RabiRoute.MessageGrouping
