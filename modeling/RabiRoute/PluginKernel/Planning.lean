import RabiRoute.PluginKernel.CapabilityGraphIsolation
import RabiRoute.Shared.Fallible

/-!
# What the strict planner accepts

The planner accepts a graph whose ids are distinct, whose capabilities have one provider each, not the
host, and whose running members do not depend on themselves.  It then orders all running members.
-/

namespace RabiRoute.PluginKernel

open Collections Graphs Fallible

variable {nodes : List CapabilityGraphNode} {hostCapabilities : List Capability} {capability : Capability}
  {id : InstanceId}

/-! ## Providers -/

/-- The instances that provide a capability, in the order of the candidates. -/
def suppliers (nodes : List CapabilityGraphNode) (capability : Capability) : List InstanceId :=
  ((provisions nodes).filter fun p ↦ decide (p.1 = capability)).map Prod.snd

/-- The first of them. -/
def supplier (nodes : List CapabilityGraphNode) (capability : Capability) : Option InstanceId :=
  (suppliers nodes capability).head?

theorem mem_provisions : (capability, id) ∈ provisions nodes ↔
    ∃ c ∈ nodes, c.instanceId = id ∧ capability ∈ c.manifest.provides := by
  unfold provisions
  simp only [List.mem_flatMap, List.mem_map, Prod.mk.injEq]
  constructor
  · rintro ⟨c, hc, capability', hmem, rfl, rfl⟩
    exact ⟨c, hc, rfl, hmem⟩
  · rintro ⟨c, hc, rfl, hmem⟩
    exact ⟨c, hc, capability, hmem, rfl, rfl⟩

theorem mem_suppliers : id ∈ suppliers nodes capability ↔ (capability, id) ∈ provisions nodes := by
  unfold suppliers
  simp [List.mem_map, List.mem_filter]

theorem mem_of_supplier (h : supplier nodes capability = some id) : (capability, id) ∈ provisions nodes :=
  mem_suppliers.mp (List.mem_of_mem_head? h)

/-- The lists of providers that the isolation collects. -/
theorem suppliersOf_getD : ((suppliersOf nodes).get? capability).getD [] = suppliers nodes capability := by
  unfold suppliersOf suppliers
  rw [InsertionMap.groupBy_getD]
  simp only [Option.some.injEq]

theorem firstSupplier_eq : firstSupplier (suppliersOf nodes) capability = supplier nodes capability := by
  unfold supplier
  rw [← suppliersOf_getD]
  unfold firstSupplier
  cases (suppliersOf nodes).get? capability <;> rfl

/-- The graph that the planner accepts, cycles aside. -/
structure Sound (hostCapabilities : List Capability) (nodes : List CapabilityGraphNode) : Prop where
  ids : (nodes.map CapabilityGraphNode.instanceId).Nodup
  single : ((provisions nodes).map Prod.fst).Nodup
  free : ∀ p ∈ provisions nodes, p.1 ∉ hostCapabilities

/-- Adding providers succeeds exactly where each capability is new and not the host's. -/
theorem addProviders_ok {providers : InsertionMap Capability InstanceId} :
    (provisions nodes).foldlM (addProvider hostCapabilities) .empty = .ok providers ↔
      (∀ p ∈ provisions nodes, p.1 ∉ hostCapabilities) ∧ ((provisions nodes).map Prod.fst).Nodup ∧
        providers.entries = provisions nodes := by
  have hput (m : InsertionMap Capability InstanceId) (p : Capability × InstanceId) :
      id (m.set p.1 p.2) = (id m).set p.1 p.2 := rfl
  rw [InsertionMap.foldlM_set_ok (P := fun p => p.1 ∉ hostCapabilities) Function.injective_id hput]
  · simp
  · intro m p m'
    unfold addProvider
    split
    case isTrue hhost => simp [hhost]
    case isFalse hhost =>
      cases hget : m.get? p.1 with
      | none => simpa [hhost, hget] using eq_comm
      | some existing => simp [hget]

theorem uniqueCandidates_ok {byId : InsertionMap InstanceId CapabilityGraphNode} :
    uniqueCandidates nodes = .ok byId ↔ (nodes.map CapabilityGraphNode.instanceId).Nodup ∧
      byId.entries = nodes.map fun c => (c.instanceId, c) := by
  unfold uniqueCandidates
  have hput (m : InsertionMap InstanceId CapabilityGraphNode) (c : CapabilityGraphNode) :
      id (m.set c.instanceId c) = (id m).set c.instanceId c := rfl
  rw [InsertionMap.foldlM_set_ok (P := fun _ => True) Function.injective_id hput]
  · simp
  · intro m c m'
    cases hget : m.get? c.instanceId with
    | none => simpa [InsertionMap.has, hget] using eq_comm
    | some existing => simp [InsertionMap.has, hget]

/-- The planner's providers are the first suppliers. -/
theorem get?_of_provisions {providers : InsertionMap Capability InstanceId}
    (hentries : providers.entries = provisions nodes) : providers.get? capability = supplier nodes capability := by
  unfold InsertionMap.get? supplier suppliers
  rw [hentries, List.head?_map, List.head?_filter]

/-! ## Waiting members -/

/-- A required capability is neither the host's nor provided by a member that does not wait. -/
def Condemned (hostCapabilities : List Capability) (nodes : List CapabilityGraphNode)
    (waits : InstanceId → Bool) (c : CapabilityGraphNode) : Prop :=
  ∃ capability ∈ c.manifest.requires, capability ∉ hostCapabilities ∧
    ∀ provider, supplier nodes capability = some provider → waits provider = true

/-- The members that cannot run, as the isolation computes them. -/
def unavailable (hostCapabilities : List Capability) (nodes : List CapabilityGraphNode) : InstanceId → Bool :=
  (saturate nodes CapabilityGraphNode.instanceId (lacks hostCapabilities (suppliersOf nodes))).has

theorem Condemned.mono {waits waits' : InstanceId → Bool} {c : CapabilityGraphNode} (h : Condemned hostCapabilities
    nodes waits c) (hmore : ∀ id, waits id = true → waits' id = true) : Condemned hostCapabilities nodes waits' c := by
  obtain ⟨capability, hmem, hhost, hall⟩ := h
  exact ⟨capability, hmem, hhost, fun p hp => hmore p (hall p hp)⟩

theorem lacks_iff {waits : InstanceId → Bool} {c : CapabilityGraphNode} :
    lacks hostCapabilities (suppliersOf nodes) waits c ≠ none ↔ Condemned hostCapabilities nodes waits c := by
  unfold lacks Condemned
  rw [ne_eq, ite_eq_right_iff, Classical.not_imp, List.any_eq_true]
  simp only [Bool.and_eq_true, Bool.not_eq_true', decide_eq_false_iff_not, reduceCtorEq, not_false_eq_true, and_true]
  refine exists_congr fun capability => and_congr_right fun _ => and_congr_right fun _ => ?_
  rw [firstSupplier_eq]
  cases supplier nodes capability <;> simp

theorem missing_iff {providers : InsertionMap Capability InstanceId} (hentries : providers.entries = provisions nodes)
    {waits : InstanceId → Bool} {c : CapabilityGraphNode} :
    missing hostCapabilities providers waits c ≠ none ↔ Condemned hostCapabilities nodes waits c := by
  unfold missing Condemned
  dsimp only
  rw [ne_eq, ite_eq_left_iff, Classical.not_imp, List.isEmpty_iff, List.filter_eq_nil_iff]
  simp only [Classical.not_forall, not_not, reduceCtorEq, not_false_eq_true, and_true, exists_prop]
  refine exists_congr fun capability => and_congr_right fun _ => ?_
  split
  case isTrue hhost => simp [hhost]
  case isFalse hhost =>
    rw [get?_of_provisions hentries]
    cases supplier nodes capability <;> simp [hhost]

/-- The planner waits for the members that the isolation takes for unavailable. -/
theorem waiting_has {providers : InsertionMap Capability InstanceId} (hentries : providers.entries = provisions nodes) :
    (saturate nodes CapabilityGraphNode.instanceId (missing hostCapabilities providers)).has =
      unavailable hostCapabilities nodes := by
  funext id
  rw [Bool.eq_iff_iff]
  constructor
  · refine saturate_mono fun c hc marked marked' hmore hcondemned => ⟨c, hc, rfl, ?_⟩
    exact lacks_iff.mpr (((missing_iff hentries).mp hcondemned).mono hmore)
  · refine saturate_mono fun c hc marked marked' hmore hcondemned => ⟨c, hc, rfl, ?_⟩
    exact (missing_iff hentries).mpr ((lacks_iff.mp hcondemned).mono hmore)

/-! ## Counting the dependencies -/

/-- The dependents of a provider so far. -/
def dependentsOf (s : Counts) (provider : InstanceId) : List InstanceId := (s.2.get? provider).getD []

theorem countDependencies_spec (id : InstanceId) (providers : List InstanceId) (s : Counts) :
    (∀ n, s.1.get? id = some n →
      (providers.foldl (countDependency id) s).1.get? id = some (n + providers.length)) ∧
    (∀ d, d ≠ id → (providers.foldl (countDependency id) s).1.get? d = s.1.get? d) ∧
    (∀ p d, d ∈ dependentsOf (providers.foldl (countDependency id) s) p ↔
      d ∈ dependentsOf s p ∨ (d = id ∧ p ∈ providers)) ∧
    ((∀ p, (dependentsOf s p).Nodup) → ∀ p, (dependentsOf (providers.foldl (countDependency id) s) p).Nodup) := by
  induction providers generalizing s with
  | nil => simp
  | cons provider rest ih =>
    obtain ⟨hdegree, hother, hmem, hnodup⟩ := ih (s := countDependency id s provider)
    have hvalues (p : InstanceId) : dependentsOf (countDependency id s provider) p =
        if p = provider ∧ id ∉ dependentsOf s p then dependentsOf s p ++ [id] else dependentsOf s p := by
      unfold dependentsOf countDependency
      dsimp only
      rw [InsertionMap.get?_set]
      by_cases hp : p = provider
      · rw [if_pos hp, Option.getD_some, hp]
        by_cases hid : id ∈ (s.2.get? provider).getD [] <;> simp [hid]
      · simp [hp]
    refine ⟨fun n hn => ?_, fun d hd => ?_, fun p d => ?_, fun hs p => ?_⟩
    · have hnext : (countDependency id s provider).1.get? id = some (n + 1) := by
        unfold countDependency
        rw [InsertionMap.get?_set_self, hn, Option.getD_some]
      rw [List.foldl_cons, hdegree (n + 1) hnext, List.length_cons]
      exact congrArg some (by omega)
    · rw [List.foldl_cons, hother d hd]
      exact InsertionMap.get?_set_of_ne hd
    · rw [List.foldl_cons, hmem, hvalues, List.mem_cons]
      split
      case isTrue h =>
        rw [List.mem_append, List.mem_singleton, h.1]
        constructor
        · rintro ((hd | hd) | ⟨hd, hp⟩)
          · exact .inl hd
          · exact .inr ⟨hd, .inl rfl⟩
          · exact .inr ⟨hd, .inr hp⟩
        · rintro (hd | ⟨hd, hp | hp⟩)
          · exact .inl (.inl hd)
          · exact .inl (.inr hd)
          · exact .inr ⟨hd, hp⟩
      case isFalse h =>
        constructor
        · exact fun hd => hd.imp_right fun hd => ⟨hd.1, .inr hd.2⟩
        · rintro (hd | ⟨rfl, rfl | hp⟩)
          · exact .inl hd
          · exact .inl (by simpa using h)
          · exact .inr ⟨rfl, hp⟩
    · refine hnodup (fun p => ?_) p
      rw [hvalues]
      split
      case isTrue h =>
        refine List.nodup_append.mpr ⟨hs p, List.nodup_singleton id, fun a ha b hb => ?_⟩
        rintro rfl
        exact h.2 (List.mem_singleton.mp hb ▸ ha)
      case isFalse => exact hs p

theorem countCandidates_spec (needs : CapabilityGraphNode → List InstanceId) (cs : List CapabilityGraphNode)
    {s : Counts} (hids : (cs.map CapabilityGraphNode.instanceId).Nodup) :
    (∀ c ∈ cs, ∀ n, s.1.get? c.instanceId = some n →
      (cs.foldl (countCandidate needs) s).1.get? c.instanceId = some (n + (needs c).length)) ∧
    (∀ d, d ∉ cs.map CapabilityGraphNode.instanceId →
      (cs.foldl (countCandidate needs) s).1.get? d = s.1.get? d) ∧
    (∀ p d, d ∈ dependentsOf (cs.foldl (countCandidate needs) s) p ↔
      d ∈ dependentsOf s p ∨ ∃ c ∈ cs, c.instanceId = d ∧ p ∈ needs c) ∧
    ((∀ p, (dependentsOf s p).Nodup) → ∀ p, (dependentsOf (cs.foldl (countCandidate needs) s) p).Nodup) := by
  induction cs generalizing s with
  | nil => simp
  | cons c rest ih =>
    rw [List.map_cons, List.nodup_cons] at hids
    obtain ⟨hdegree, hother, hmem, hnodup⟩ := ih (s := countCandidate needs s c) hids.2
    obtain ⟨hdegree₁, hother₁, hmem₁, hnodup₁⟩ :=
      countDependencies_spec c.instanceId (needs c) s
    refine ⟨fun c' hc' n hn => ?_, fun d hd => ?_, fun p d => ?_, fun hs p => ?_⟩
    · rw [List.foldl_cons]
      rcases List.mem_cons.mp hc' with rfl | hrest
      · rw [hother _ hids.1]
        exact hdegree₁ n hn
      · refine hdegree c' hrest n ?_
        rw [← hn]
        exact hother₁ _ fun h => hids.1 (List.mem_map.mpr ⟨c', hrest, h⟩)
    · rw [List.map_cons, List.mem_cons, not_or] at hd
      rw [List.foldl_cons, hother d hd.2]
      exact hother₁ d hd.1
    · rw [List.foldl_cons, hmem]
      show (d ∈ dependentsOf ((needs c).foldl (countDependency c.instanceId) s) p ∨ _) ↔ _
      rw [hmem₁]
      constructor
      · rintro ((hd | ⟨rfl, hp⟩) | ⟨c', hc', hd⟩)
        · exact .inl hd
        · exact .inr ⟨c, List.mem_cons_self, rfl, hp⟩
        · exact .inr ⟨c', List.mem_cons_of_mem c hc', hd⟩
      · rintro (hd | ⟨c', hc', hd, hp⟩)
        · exact .inl (.inl hd)
        · rcases List.mem_cons.mp hc' with rfl | hrest
          · exact .inl (.inr ⟨hd.symm, hp⟩)
          · exact .inr ⟨c', hrest, hd, hp⟩
    · exact hnodup (hnodup₁ hs) p

/-- The counts that the planner starts from: degree zero for each running candidate. -/
def countAll (needs : CapabilityGraphNode → List InstanceId) (running : List CapabilityGraphNode) : Counts :=
  running.foldl (countCandidate needs)
    (running.foldl (fun indegree c ↦ indegree.set c.instanceId 0) .empty, .empty)

/-- The needs of the candidate with an id. -/
def needsOf (needs : CapabilityGraphNode → List InstanceId) (running : List CapabilityGraphNode)
    (d : InstanceId) : List InstanceId :=
  ((running.find? fun c ↦ decide (c.instanceId = d)).map needs).getD []

section

variable {needs : CapabilityGraphNode → List InstanceId} {running : List CapabilityGraphNode}

theorem needsOf_eq (hids : (running.map CapabilityGraphNode.instanceId).Nodup) {c : CapabilityGraphNode}
    (hc : c ∈ running) : needsOf needs running c.instanceId = needs c := by
  unfold needsOf
  cases hfind : running.find? fun c' => decide (c'.instanceId = c.instanceId) with
  | none => exact absurd (List.find?_eq_none.mp hfind c hc) (by simp)
  | some c' =>
    have hsame : c'.instanceId = c.instanceId := by simpa using List.find?_some hfind
    obtain rfl := List.inj_on_of_nodup_map hids (List.mem_of_find?_eq_some hfind) hc hsame
    rfl

theorem needsOf_of_none {d : InstanceId} (h : ¬∃ c ∈ running, c.instanceId = d) : needsOf needs running d = [] := by
  unfold needsOf
  rw [List.find?_eq_none.mpr]
  · rfl
  · intro c hc
    rw [decide_eq_true_eq]
    exact fun hid => h ⟨c, hc, hid⟩

/-- An instance without dependents has no entry. -/
theorem countAll_dependents {p : InstanceId} {values : List InstanceId}
    (h : (countAll needs running).2.get? p = some values) : values ≠ [] := by
  have hstep (id : InstanceId) (providers : List InstanceId) (s : Counts)
      (hs : ∀ p values, s.2.get? p = some values → values ≠ []) :
      ∀ p values, (providers.foldl (countDependency id) s).2.get? p = some values → values ≠ [] := by
    induction providers generalizing s with
    | nil => exact hs
    | cons provider rest ih =>
      refine ih _ fun q values hq => ?_
      unfold countDependency at hq
      dsimp only at hq
      rw [InsertionMap.get?_set] at hq
      split at hq
      · obtain rfl := Option.some.inj hq
        split
        · rename_i hmem
          exact List.ne_nil_of_mem hmem
        · exact List.append_ne_nil_of_right_ne_nil _ (List.cons_ne_nil _ _)
      · exact hs q values hq
  have hall (cs : List CapabilityGraphNode) (s : Counts) (hs : ∀ p values, s.2.get? p = some values → values ≠ []) :
      ∀ p values, (cs.foldl (countCandidate needs) s).2.get? p = some values → values ≠ [] := by
    induction cs generalizing s with
    | nil => exact hs
    | cons c rest ih => exact ih _ (hstep c.instanceId (needs c) s hs)
  exact hall running _ (fun q values hq => by cases hq) p values h

variable (needs) in
theorem has_countAll (hids : (running.map CapabilityGraphNode.instanceId).Nodup) (d : InstanceId) :
    (countAll needs running).1.has d = true ↔ ∃ c ∈ running, c.instanceId = d := by
  obtain ⟨hdegree, hother, -, -⟩ := countCandidates_spec needs running
    (s := (running.foldl (fun indegree c => indegree.set c.instanceId 0) .empty, .empty)) hids
  have hzero : (running.foldl (fun indegree c => indegree.set c.instanceId 0)
      (InsertionMap.empty : InsertionMap InstanceId Int)).entries = running.map fun c => (c.instanceId, 0) :=
    InsertionMap.entries_foldl_set (fun _ _ => rfl) hids
  constructor
  · intro hd
    by_contra hnone
    obtain ⟨n, hn⟩ := Option.isSome_iff_exists.mp hd
    have hold := (hother d (by simpa using hnone)).symm.trans hn
    rw [InsertionMap.get?_eq_some, hzero] at hold
    obtain ⟨c, hc, hsame⟩ := List.mem_map.mp hold
    exact hnone ⟨c, hc, (Prod.mk.inj hsame).1⟩
  · rintro ⟨c, hc, rfl⟩
    refine Option.isSome_iff_exists.mpr ⟨_, hdegree c hc 0 ?_⟩
    rw [InsertionMap.get?_eq_some, hzero]
    exact List.mem_map.mpr ⟨c, hc, rfl⟩

theorem counted_countAll (hids : (running.map CapabilityGraphNode.instanceId).Nodup) (hneeds : ∀ c, (needs c).Nodup) :
    Counted (needsOf needs running) (countAll needs running).1 (countAll needs running).2 := by
  obtain ⟨hdegree, -, hmem, hnodup⟩ := countCandidates_spec needs running
    (s := (running.foldl (fun indegree c => indegree.set c.instanceId 0) .empty, .empty)) hids
  have hzero : (running.foldl (fun indegree c => indegree.set c.instanceId 0)
      (InsertionMap.empty : InsertionMap InstanceId Int)).entries = running.map fun c => (c.instanceId, 0) :=
    InsertionMap.entries_foldl_set (fun _ _ => rfl) hids
  refine ⟨fun d => ?_, fun d n hn => ?_, hnodup fun _ => List.nodup_nil, fun p d => ?_⟩
  · unfold needsOf
    cases running.find? fun c => decide (c.instanceId = d) with
    | none => exact List.nodup_nil
    | some c => exact hneeds c
  · obtain ⟨c, hc, rfl⟩ := (has_countAll needs hids d).mp (Option.isSome_iff_exists.mpr ⟨n, hn⟩)
    have hcount := hdegree c hc 0 (by
      rw [InsertionMap.get?_eq_some, hzero]
      exact List.mem_map.mpr ⟨c, hc, rfl⟩)
    rw [needsOf_eq hids hc]
    have hsame := Option.some.inj (hn.symm.trans hcount)
    omega
  · refine (hmem p d).trans ?_
    rw [has_countAll needs hids]
    constructor
    · rintro (hd | ⟨c, hc, rfl, hp⟩)
      · exact absurd hd List.not_mem_nil
      · rw [needsOf_eq hids hc]
        exact ⟨⟨c, hc, rfl⟩, hp⟩
    · rintro ⟨⟨c, hc, rfl⟩, hp⟩
      rw [needsOf_eq hids hc] at hp
      exact .inr ⟨c, hc, rfl, hp⟩

end

theorem mem_dependencyProviders {providers : InsertionMap Capability InstanceId} {waits : InstanceId → Bool}
    {c : CapabilityGraphNode} {p : InstanceId} : p ∈ dependencyProviders providers waits c ↔
      p ≠ c.instanceId ∧ waits p = false ∧
        ∃ capability ∈ c.manifest.requires ++ c.manifest.optional, providers.get? capability = some p := by
  unfold dependencyProviders
  simp only [mem_addAll, List.not_mem_nil, false_or, List.mem_filterMap, Option.filter_eq_some_iff,
    Bool.not_eq_true', Bool.or_eq_false_iff, decide_eq_false_iff_not]
  constructor
  · rintro ⟨capability, hmem, hget, hne, hwaits⟩
    exact ⟨hne, hwaits, capability, hmem, hget⟩
  · rintro ⟨hne, hwaits, capability, hmem, hget⟩
    exact ⟨capability, hmem, hget, hne, hwaits⟩

/-! ## The planner -/

/-- `d` uses a capability of `p`. -/
def Uses (nodes : List CapabilityGraphNode) (d p : InstanceId) : Prop :=
  ∃ c ∈ nodes, c.instanceId = d ∧ p ≠ d ∧
    ∃ capability ∈ c.manifest.requires ++ c.manifest.optional, supplier nodes capability = some p

/-- Both run, and `d` uses a capability of `p`. -/
def ComesAfter (hostCapabilities : List Capability) (nodes : List CapabilityGraphNode) (d p : InstanceId) : Prop :=
  unavailable hostCapabilities nodes d = false ∧ unavailable hostCapabilities nodes p = false ∧ Uses nodes d p

theorem planCapabilityGraph_ok (h : Sound hostCapabilities nodes)
    (hacyclic : Acyclic (ComesAfter hostCapabilities nodes)) :
    ∃ plan, planCapabilityGraph nodes hostCapabilities = .ok plan ∧
      plan.waiting.has = unavailable hostCapabilities nodes ∧
      ∀ id, id ∈ plan.activationOrder ↔
        id ∈ nodes.map CapabilityGraphNode.instanceId ∧ unavailable hostCapabilities nodes id = false := by
  let byId : InsertionMap InstanceId CapabilityGraphNode :=
    ⟨nodes.map fun c => (c.instanceId, c), by simpa [Function.comp_def] using h.ids⟩
  let providers : InsertionMap Capability InstanceId := ⟨provisions nodes, h.single⟩
  have hunique : uniqueCandidates nodes = .ok byId := uniqueCandidates_ok.mpr ⟨h.ids, rfl⟩
  have hvalues : byId.values = nodes := by simp [InsertionMap.values, byId, Function.comp_def]
  have hproviders : (provisions nodes).foldlM (addProvider hostCapabilities) .empty = .ok providers :=
    addProviders_ok.mpr ⟨h.free, h.single, rfl⟩
  have hwaits : (saturate nodes CapabilityGraphNode.instanceId (missing hostCapabilities providers)).has =
      unavailable hostCapabilities nodes := waiting_has rfl
  have hget (capability : Capability) : providers.get? capability = supplier nodes capability :=
    get?_of_provisions rfl
  let running := nodes.filter fun c => !unavailable hostCapabilities nodes c.instanceId
  have hmemRunning (c : CapabilityGraphNode) : c ∈ running ↔
      c ∈ nodes ∧ unavailable hostCapabilities nodes c.instanceId = false := by
    rw [List.mem_filter, Bool.not_eq_true']
  have hids : (running.map CapabilityGraphNode.instanceId).Nodup := h.ids.sublist (List.filter_sublist.map _)
  let needs := dependencyProviders providers (unavailable hostCapabilities nodes)
  have hcounted : Counted (needsOf needs running) (countAll needs running).1 (countAll needs running).2 :=
    counted_countAll hids fun _ => nodup_addAll List.nodup_nil
  have hhas := has_countAll needs hids
  -- a need of a running candidate is a running candidate that it comes after
  have hafter {d p : InstanceId} (hd : (countAll needs running).1.has d = true)
      (hp : p ∈ needsOf needs running d) : ComesAfter hostCapabilities nodes d p := by
    obtain ⟨c, hc, rfl⟩ := (hhas d).mp hd
    rw [needsOf_eq hids hc] at hp
    obtain ⟨hne, hrun, capability, hmem, hsupplier⟩ := mem_dependencyProviders.mp hp
    exact ⟨((hmemRunning c).mp hc).2, hrun, c, ((hmemRunning c).mp hc).1, rfl, hne, capability, hmem,
      hget capability ▸ hsupplier⟩
  have hperm : (takeAll byText (countAll needs running).2 (countAll needs running).1).Perm
      (countAll needs running).1.keys := by
    refine takeAll_complete byText hcounted (fun d p hd hp => ?_) (hacyclic.mono fun d p hdp => hafter hdp.1 hdp.2)
    obtain ⟨-, hrun, c, -, -, -, capability, -, hsupplier⟩ := hafter hd hp
    obtain ⟨c', hc', rfl, -⟩ := mem_provisions.mp (mem_of_supplier hsupplier)
    exact (hhas _).mpr ⟨c', (hmemRunning c').mpr ⟨hc', hrun⟩, rfl⟩
  refine ⟨{
    activationOrder := takeAll byText (countAll needs running).2 (countAll needs running).1
    waiting := saturate nodes CapabilityGraphNode.instanceId (missing hostCapabilities providers)
    providers
    dependents := (countAll needs running).2.mapValues byText.sort }, ?_, hwaits, fun d => ?_⟩
  · unfold planCapabilityGraph
    rw [hunique]
    dsimp only [bind, Except.bind]
    rw [hvalues, hproviders]
    dsimp only
    rw [hwaits]
    refine if_neg ?_
    rw [not_not]
    exact hperm.length_eq.trans (List.length_map _)
  · rw [hperm.mem_iff, ← InsertionMap.has_iff, hhas, List.mem_map]
    constructor
    · rintro ⟨c, hc, rfl⟩
      exact ⟨⟨c, ((hmemRunning c).mp hc).1, rfl⟩, ((hmemRunning c).mp hc).2⟩
    · rintro ⟨⟨c, hc, rfl⟩, hrun⟩
      exact ⟨c, (hmemRunning c).mpr ⟨hc, hrun⟩, rfl⟩

/-- A planner that does not throw was given capabilities with one provider each. -/
theorem single_of_plan {plan : CapabilityGraphPlan} (h : planCapabilityGraph nodes hostCapabilities = .ok plan) :
    Sound hostCapabilities nodes := by
  unfold planCapabilityGraph at h
  obtain ⟨byId, hunique, h⟩ := bind_ok.mp h
  obtain ⟨providers, hproviders, -⟩ := bind_ok.mp h
  obtain ⟨hids, hentries⟩ := uniqueCandidates_ok.mp hunique
  have hvalues : byId.values = nodes := by simp [InsertionMap.values, hentries, Function.comp_def]
  rw [hvalues] at hproviders
  obtain ⟨hfree, hsingle, -⟩ := addProviders_ok.mp hproviders
  exact ⟨hids, hsingle, hfree⟩

end RabiRoute.PluginKernel
