import RabiRoute.PluginKernel.IsolationRounds

/-!
# The graph that the planner gets

The optional orderings are added one by one, each only where its provider does not come after its
candidate, so that the running members stay without a cycle and the planner accepts the graph.
-/

namespace RabiRoute.PluginKernel

open Collections Graphs Relation

variable {α : Type} [GraphCandidate α] {hostCapabilities : List Capability} {previous effective : Candidates α}
  {id : InstanceId}

/-! ## Required edges -/

/-- Both run, and an edge leads from one to the other. -/
def RunningEdge (waits : InstanceId → Bool) (edges : Edges) (a b : InstanceId) : Prop :=
  waits a = false ∧ waits b = false ∧ EdgeOf edges a b

theorem mem_requiredProviders {nodes : List CapabilityGraphNode} {c : CapabilityGraphNode} {p : InstanceId} :
    p ∈ requiredProviders (suppliersOf nodes) c ↔
      p ≠ c.instanceId ∧ ∃ capability ∈ c.manifest.requires, supplier nodes capability = some p := by
  unfold requiredProviders
  simp only [List.mem_filter, List.mem_filterMap, decide_eq_true_eq, firstSupplier_eq]
  exact and_comm

theorem requiredEdges_get? {supplied : InsertionMap Capability (List InstanceId)} {c : α}
    (hc : effective.map.get? id = some c) :
    (requiredEdges supplied effective.map.values).get? id = some (addAll [] (requiredProviders supplied (node c))) := by
  have hentries : (requiredEdges supplied effective.map.values).entries =
      effective.map.values.map fun c => (idOf c, addAll [] (requiredProviders supplied (node c))) :=
    InsertionMap.entries_foldl_set (fun _ _ => rfl) effective.nodup_values
  rw [InsertionMap.get?_eq_some, hentries, List.mem_map]
  exact ⟨c, InsertionMap.mem_values.mpr ⟨id, hc⟩, Prod.ext (effective.keyed id c hc) rfl⟩

theorem requiredEdges_none {supplied : InsertionMap Capability (List InstanceId)}
    (hid : effective.map.get? id = none) : (requiredEdges supplied effective.map.values).get? id = none := by
  have hkeep : ∀ (l : List α) (edges : Edges), (∀ c ∈ l, idOf c ≠ id) →
      (l.foldl (fun edges c => edges.set (idOf c) (addAll [] (requiredProviders supplied (node c)))) edges).get? id =
        edges.get? id := by
    intro l
    induction l with
    | nil => exact fun _ _ => rfl
    | cons c rest ih =>
      intro edges hl
      rw [List.foldl_cons, ih _ fun c' hc' => hl c' (List.mem_cons_of_mem c hc')]
      exact InsertionMap.get?_set_of_ne (hl c List.mem_cons_self).symm
  refine hkeep _ _ fun c hc hsame => ?_
  obtain ⟨id', hid'⟩ := InsertionMap.mem_values.mp hc
  rw [← effective.keyed id' c hid', hsame, hid] at hid'
  cases hid'

theorem edgeOf_requiredEdges {b : InstanceId} :
    EdgeOf (requiredEdges (suppliersOf effective.nodes) effective.map.values) id b ↔
      ∃ c, effective.map.get? id = some c ∧ b ∈ requiredProviders (suppliersOf effective.nodes) (node c) := by
  unfold EdgeOf
  cases hget : effective.map.get? id with
  | none => simp [requiredEdges_none hget]
  | some c => simp [requiredEdges_get? hget, mem_addAll]

/-- Without a required cycle the running members do not depend on themselves. -/
theorem acyclic_required (h : requiredCycles effective (suppliersOf effective.nodes) hostCapabilities = []) :
    Acyclic (RunningEdge (unavailable hostCapabilities effective.nodes)
      (requiredEdges (suppliersOf effective.nodes) effective.map.values)) := by
  refine (findCycles_nil h).mono fun a b hab => ?_
  obtain ⟨ha, hb, hedge⟩ := hab
  obtain ⟨c, hc, hmem⟩ := edgeOf_requiredEdges.mp hedge
  obtain ⟨-, capability, -, hsupplier⟩ := mem_requiredProviders.mp hmem
  have hkey := key_of_provision (mem_of_supplier hsupplier)
  refine ⟨⟨InsertionMap.mem_keys.mpr ⟨c, hc⟩, ha, ?_⟩, InsertionMap.has_iff.mp hkey, hb⟩
  dsimp only
  rw [hc]
  exact hmem

/-! ## Optional edges -/

theorem edgeOf_set {edges : Edges} {a p x y : InstanceId} :
    EdgeOf (edges.set a ((edges.get? a).getD [] ++ [p])) x y ↔ AddedEdge (EdgeOf edges) a p x y := by
  unfold EdgeOf AddedEdge
  rw [InsertionMap.get?_set]
  by_cases hx : x = a
  · simp [hx]
  · simp [hx]

/-- Adding an optional edge that closes no cycle. -/
theorem acyclic_addEdge {waits : InstanceId → Bool} {edges : Edges} {a p : InstanceId}
    (h : Acyclic (RunningEdge waits edges)) (hback : reaches edges p a = false) :
    Acyclic (RunningEdge waits (edges.set a ((edges.get? a).getD [] ++ [p]))) := by
  have hnot : ¬ReflTransGen (RunningEdge waits edges) p a := fun hpath =>
    reaches_false hback (ReflTransGen.mono (fun _ _ hxy => hxy.2.2) _ _ hpath)
  refine (h.addedEdge hnot).mono fun x y hxy => ?_
  exact (edgeOf_set.mp hxy.2.2).imp_left fun hold => ⟨hxy.1, hxy.2.1, hold⟩

/-- What the optional capabilities of a candidate add. -/
structure Ordered (waits : InstanceId → Bool) (nodes : List CapabilityGraphNode) (a : InstanceId)
    (s s' : PlanningState α) : Prop where
  acyclic : Acyclic (RunningEdge waits s.edges) → Acyclic (RunningEdge waits s'.edges)
  edges : ∀ x y, EdgeOf s.edges x y → EdgeOf s'.edges x y
  optional : ∀ capability ∈ s'.optional, capability ∈ s.optional ∨
    ∀ p, supplier nodes capability = some p → p = a ∨ EdgeOf s'.edges a p
  diagnostics : ∀ id d, s'.diagnostics.get? id = some d → d.rejected = true → s.diagnostics.get? id = some d

omit [GraphCandidate α] in
theorem Ordered.refl {waits : InstanceId → Bool} {nodes : List CapabilityGraphNode} (s : PlanningState α) :
    Ordered waits nodes id s s :=
  ⟨fun h => h, fun _ _ h => h, fun _ h => .inl h, fun _ _ h _ => h⟩

omit [GraphCandidate α] in
theorem Ordered.trans {waits : InstanceId → Bool} {nodes : List CapabilityGraphNode} {s s' s'' : PlanningState α}
    (h : Ordered waits nodes id s s') (h' : Ordered waits nodes id s' s'') : Ordered waits nodes id s s'' := by
  refine ⟨fun ha => h'.acyclic (h.acyclic ha), fun x y hxy => h'.edges x y (h.edges x y hxy), ?_, ?_⟩
  · intro capability hmem
    rcases h'.optional capability hmem with hold | hnew
    · refine (h.optional capability hold).imp_right fun hedge p hp => (hedge p hp).imp_right fun hedge => ?_
      exact h'.edges _ _ hedge
    · exact .inr hnew
  · exact fun id d hd hrejected => h.diagnostics id d (h'.diagnostics id d hd hrejected) hrejected

theorem orderOptional_ordered {waits : InstanceId → Bool} {nodes : List CapabilityGraphNode} (c : α)
    (s : PlanningState α) (capability : Capability) :
    Ordered waits nodes (idOf c) s (orderOptional (suppliersOf nodes) c s capability) := by
  have hkept {s' : PlanningState α} (hedges : ∀ x y, EdgeOf s.edges x y → EdgeOf s'.edges x y)
      (hsame : s'.optional = s.optional ++ [capability])
      (hedge : ∀ p, supplier nodes capability = some p → p = idOf c ∨ EdgeOf s'.edges (idOf c) p) :
      ∀ capability ∈ s'.optional, capability ∈ s.optional ∨
        ∀ p, supplier nodes capability = some p → p = idOf c ∨ EdgeOf s'.edges (idOf c) p := by
    intro capability' hmem
    rw [hsame, List.mem_append, List.mem_singleton] at hmem
    rcases hmem with hold | rfl
    · exact .inl hold
    · exact .inr hedge
  unfold orderOptional
  rw [firstSupplier_eq]
  cases hsupplier : supplier nodes capability with
  | none =>
    exact ⟨fun h => h, fun _ _ h => h, hkept (fun _ _ h => h) rfl fun p hp => by simp [hsupplier] at hp,
      fun _ _ h _ => h⟩
  | some provider =>
    dsimp only
    split
    case isTrue hknown =>
      refine ⟨fun h => h, fun _ _ h => h, hkept (fun _ _ h => h) rfl fun p hp => ?_, fun _ _ h _ => h⟩
      obtain rfl := Option.some.inj (hsupplier.symm.trans hp)
      exact hknown
    case isFalse =>
      split
      case isTrue =>
        refine ⟨fun h => h, fun _ _ h => h, fun _ h => .inl h, fun id d hd hrejected => ?_⟩
        rcases get?_noteFirst hd with hold | ⟨-, rfl⟩
        · exact hold
        · cases hrejected
      case isFalse hback =>
        have hedges : ∀ x y, EdgeOf s.edges x y →
            EdgeOf (s.edges.set (idOf c) ((s.edges.get? (idOf c)).getD [] ++ [provider])) x y :=
          fun x y hxy => edgeOf_set.mpr (.inl hxy)
        refine ⟨fun h => acyclic_addEdge h (by simpa using hback), hedges, hkept hedges rfl fun p hp => ?_,
          fun _ _ h _ => h⟩
        obtain rfl := Option.some.inj (hsupplier.symm.trans hp)
        exact .inr (edgeOf_set.mpr (.inr ⟨rfl, rfl⟩))

theorem orderOptionals_ordered (waits : InstanceId → Bool) (nodes : List CapabilityGraphNode) (c : α)
    (capabilities : List Capability) (s : PlanningState α) :
    Ordered waits nodes (idOf c) s (capabilities.foldl (orderOptional (suppliersOf nodes) c) s) := by
  induction capabilities generalizing s with
  | nil => exact .refl s
  | cons capability rest ih => exact (orderOptional_ordered c s capability).trans (ih _)

/-! ## The planned graph -/

/-- The planner gets the candidate with those of its optional capabilities whose providers come first. -/
def Planned (nodes : List CapabilityGraphNode) (edges : Edges) (c : α) (n : CapabilityGraphNode) : Prop :=
  ∃ optional, n = withOptional c optional ∧ ∀ capability ∈ optional,
    ∀ p, supplier nodes capability = some p → p = idOf c ∨ EdgeOf edges (idOf c) p

theorem orderCandidates_spec (waits : InstanceId → Bool) (nodes : List CapabilityGraphNode) (cs : List α)
    (s : PlanningState α × List CapabilityGraphNode) :
    (Acyclic (RunningEdge waits s.1.edges) →
      Acyclic (RunningEdge waits (cs.foldl (orderCandidate (suppliersOf nodes)) s).1.edges)) ∧
    (∀ x y, EdgeOf s.1.edges x y → EdgeOf (cs.foldl (orderCandidate (suppliersOf nodes)) s).1.edges x y) ∧
    (∀ id d, (cs.foldl (orderCandidate (suppliersOf nodes)) s).1.diagnostics.get? id = some d →
      d.rejected = true → s.1.diagnostics.get? id = some d) ∧
    ∃ planned, (cs.foldl (orderCandidate (suppliersOf nodes)) s).2 = s.2 ++ planned ∧
      List.Forall₂ (Planned nodes (cs.foldl (orderCandidate (suppliersOf nodes)) s).1.edges) cs planned := by
  induction cs generalizing s with
  | nil => exact ⟨fun h => h, fun _ _ h => h, fun _ _ h _ => h, [], (List.append_nil _).symm, .nil⟩
  | cons c rest ih =>
    have hc := orderOptionals_ordered waits nodes c (node c).manifest.optional
      { s.1 with optional := [] }
    obtain ⟨hacyclic, hedges, hdiagnostics, planned, hplanned, hall⟩ := ih (orderCandidate (suppliersOf nodes) s c)
    refine ⟨fun h => hacyclic (hc.acyclic h), fun x y h => hedges x y (hc.edges x y h),
      fun id d hd hrejected => hc.diagnostics id d (hdiagnostics id d hd hrejected) hrejected, ?_⟩
    refine ⟨_ :: planned, hplanned.trans (List.append_assoc _ _ _), .cons ⟨_, rfl, fun capability hmem p hp => ?_⟩ hall⟩
    have hkept := (hc.optional capability hmem).resolve_left List.not_mem_nil
    exact (hkept p hp).imp_right (hedges _ _)

section

variable {nodes planned : List CapabilityGraphNode} {edges : Edges} {cs : List α}

theorem Planned.ids (h : List.Forall₂ (Planned nodes edges) cs planned) :
    planned.map CapabilityGraphNode.instanceId = (cs.map node).map CapabilityGraphNode.instanceId := by
  induction h with
  | nil => rfl
  | cons hfirst _ ih =>
    obtain ⟨optional, rfl, -⟩ := hfirst
    simp only [List.map_cons, ih]
    rfl

theorem Planned.provisions (h : List.Forall₂ (Planned nodes edges) cs planned) :
    provisions planned = provisions (cs.map node) := by
  induction h with
  | nil => rfl
  | cons hfirst _ ih =>
    obtain ⟨optional, rfl, -⟩ := hfirst
    unfold PluginKernel.provisions at ih ⊢
    rw [List.map_cons, List.flatMap_cons, List.flatMap_cons, ih]
    rfl

theorem Planned.sound (h : List.Forall₂ (Planned nodes edges) cs planned) :
    Sound hostCapabilities planned ↔ Sound hostCapabilities (cs.map node) := by
  have hsame := Planned.provisions h
  constructor
  · intro hsound
    exact ⟨Planned.ids h ▸ hsound.ids, hsame ▸ hsound.single, hsame ▸ hsound.free⟩
  · intro hsound
    exact ⟨Planned.ids h ▸ hsound.ids, hsame.symm ▸ hsound.single, hsame.symm ▸ hsound.free⟩

theorem Planned.supplier (h : List.Forall₂ (Planned nodes edges) cs planned) (capability : Capability) :
    supplier planned capability = supplier (cs.map node) capability := by
  unfold PluginKernel.supplier suppliers
  rw [Planned.provisions h]

theorem Planned.mem (h : List.Forall₂ (Planned nodes edges) cs planned) {n : CapabilityGraphNode}
    (hn : n ∈ planned) : ∃ c ∈ cs, Planned nodes edges c n := by
  induction h with
  | nil => cases hn
  | cons hfirst _ ih =>
    rcases List.mem_cons.mp hn with rfl | hrest
    · exact ⟨_, List.mem_cons_self, hfirst⟩
    · obtain ⟨c, hc, hplanned⟩ := ih hrest
      exact ⟨c, List.mem_cons_of_mem _ hc, hplanned⟩

theorem Planned.exists (h : List.Forall₂ (Planned nodes edges) cs planned) {c : α} (hc : c ∈ cs) :
    ∃ n ∈ planned, Planned nodes edges c n := by
  induction h with
  | nil => cases hc
  | cons hfirst _ ih =>
    rcases List.mem_cons.mp hc with rfl | hrest
    · exact ⟨_, List.mem_cons_self, hfirst⟩
    · obtain ⟨n, hn, hplanned⟩ := ih hrest
      exact ⟨n, List.mem_cons_of_mem _ hn, hplanned⟩

variable (hostCapabilities) in
/-- Optional capabilities do not decide who waits. -/
theorem Planned.unavailable (h : List.Forall₂ (Planned nodes edges) cs planned) :
    unavailable hostCapabilities planned = unavailable hostCapabilities (cs.map node) := by
  have hcondemned {c : α} {n : CapabilityGraphNode} (hplanned : Planned nodes edges c n) (waits : InstanceId → Bool) :
      Condemned hostCapabilities planned waits n ↔ Condemned hostCapabilities (cs.map node) waits (node c) := by
    obtain ⟨optional, rfl, -⟩ := hplanned
    unfold Condemned
    simp only [Planned.supplier h]
    rfl
  have hid {c : α} {n : CapabilityGraphNode} (hplanned : Planned nodes edges c n) :
      n.instanceId = (node c).instanceId := by
    obtain ⟨optional, rfl, -⟩ := hplanned
    rfl
  funext id
  rw [Bool.eq_iff_iff]
  constructor
  · refine saturate_mono fun n hn marked marked' hmore hlacks => ?_
    obtain ⟨c, hc, hplanned⟩ := Planned.mem h hn
    refine ⟨node c, List.mem_map_of_mem hc, (hid hplanned).symm, lacks_iff.mpr ?_⟩
    exact ((hcondemned hplanned marked).mp (lacks_iff.mp hlacks)).mono hmore
  · refine saturate_mono fun n hn marked marked' hmore hlacks => ?_
    obtain ⟨c, hc, rfl⟩ := List.mem_map.mp hn
    obtain ⟨n, hn, hplanned⟩ := Planned.exists h hc
    refine ⟨n, hn, hid hplanned, lacks_iff.mpr ?_⟩
    exact ((hcondemned hplanned marked).mpr (lacks_iff.mp hlacks)).mono hmore

end

/-- The planner accepts a graph without conflicts and without required cycles, and orders the members that
do not wait. -/
theorem planIsolated_ok {s : IsolationState α} (hsound : Sound hostCapabilities s.effective.nodes)
    (hcycles : requiredCycles s.effective (suppliersOf s.effective.nodes) hostCapabilities = []) :
    ∃ r, planIsolated hostCapabilities s = .ok r ∧ r.candidates = s.effective.map.values ∧
      r.plan.waiting.has = unavailable hostCapabilities s.effective.nodes ∧
      (∀ id, id ∈ r.plan.activationOrder ↔
        s.effective.map.has id = true ∧ unavailable hostCapabilities s.effective.nodes id = false) ∧
      (∀ id d, r.diagnostics.get? id = some d → d.rejected = true → s.diagnostics.get? id = some d) := by
  obtain ⟨hacyclic, hedges, hdiagnostics, planned, hplanned, hall⟩ := orderCandidates_spec
    (unavailable hostCapabilities s.effective.nodes) s.effective.nodes s.effective.map.values
    ({ edges := requiredEdges (suppliersOf s.effective.nodes) s.effective.map.values, diagnostics := s.diagnostics }, [])
  generalize hr : s.effective.map.values.foldl (orderCandidate (suppliersOf s.effective.nodes)) _ = r
    at hacyclic hedges hdiagnostics hplanned hall
  rw [List.nil_append] at hplanned
  have hunavailable := Planned.unavailable hostCapabilities hall
  have hsound' : Sound hostCapabilities planned := (Planned.sound hall).mpr hsound
  have hafter : Acyclic (ComesAfter hostCapabilities planned) := by
    refine (hacyclic (acyclic_required hcycles)).mono fun d p hdp => ?_
    obtain ⟨hd, hp, n, hn, rfl, hne, capability, hmem, hsupplier⟩ := hdp
    rw [hunavailable] at hd hp
    refine ⟨hd, hp, ?_⟩
    obtain ⟨c, hc, optional, rfl, hoptional⟩ := Planned.mem hall hn
    rw [Planned.supplier hall] at hsupplier
    rcases List.mem_append.mp hmem with hrequired | hkept
    · refine hedges _ _ (edgeOf_requiredEdges.mpr ⟨c, ?_, mem_requiredProviders.mpr ⟨hne, capability, hrequired, hsupplier⟩⟩)
      obtain ⟨id, hid⟩ := InsertionMap.mem_values.mp hc
      rw [show (withOptional c optional).instanceId = id from s.effective.keyed id c hid]
      exact hid
    · exact (hoptional capability hkept p hsupplier).resolve_left hne
  obtain ⟨plan, hplan, hwaiting, horder⟩ := planCapabilityGraph_ok hsound' hafter
  refine ⟨{ candidates := s.effective.map.values, diagnostics := r.1.diagnostics, plan }, ?_, rfl,
    hwaiting.trans hunavailable, fun id => ?_, hdiagnostics⟩
  · rw [← hplanned, ← hr] at hplan
    rw [← hr]
    exact Fallible.bind_ok.mpr ⟨plan, hplan, rfl⟩
  · rw [horder, hunavailable, Planned.ids hall, InsertionMap.has_iff, ← s.effective.ids_nodes]
    rfl

end RabiRoute.PluginKernel
