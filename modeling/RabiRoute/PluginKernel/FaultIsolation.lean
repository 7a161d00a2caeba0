import RabiRoute.PluginKernel.Isolation

/-!
# Newcomers do not disturb running plugins

The members that ran in an accepted graph are never found invalid next to newcomers: their capabilities
and web resources are confirmed, and whatever they require comes from each other.
-/

namespace RabiRoute.PluginKernel

open Collections Graphs Relation

variable {hostCapabilities : List Capability}

/-! ## An accepted graph -/

/-- The members of a graph that do not wait. -/
def Running (hostCapabilities : List Capability) (E : Candidates PluginCandidate) (id : InstanceId) : Prop :=
  E.map.has id = true ∧ unavailable hostCapabilities E.nodes id = false

/-- A graph that an isolation returned. -/
structure Accepted (hostCapabilities : List Capability) (E : Candidates PluginCandidate) : Prop where
  sound : Sound hostCapabilities E.nodes
  cycles : requiredCycles E (suppliersOf E.nodes) hostCapabilities = []
  web : OneRevision E.map.values

theorem isolateGraph_inv {α : Type} [GraphCandidate α] [DecidableEq α] {resourceConflicts : ResourceConflicts α}
    {rounds : Nat} {candidates : List α} {previous : Candidates α} {r : Isolation α}
    (h : isolateGraph resourceConflicts rounds candidates hostCapabilities previous = some (.ok r)) :
    ∃ s, isolationRound resourceConflicts hostCapabilities previous s = none ∧
      planIsolated hostCapabilities s = .ok r := by
  unfold isolateGraph at h
  split at h
  case h_1 => cases h
  case h_2 effective _ =>
    obtain ⟨s, hs, hplan⟩ := Option.map_eq_some_iff.mp h
    exact ⟨s, (loopWithin_spec (P := fun _ => True) (fun _ _ _ _ => trivial) trivial hs).2, hplan⟩

/-- The strict planner accepted the graph, so its capabilities have one provider each. -/
theorem sound_of_planIsolated {α : Type} [GraphCandidate α] {s : IsolationState α} {r : Isolation α}
    (h : planIsolated hostCapabilities s = .ok r) : Sound hostCapabilities s.effective.nodes := by
  unfold planIsolated at h
  obtain ⟨plan, hplan, -⟩ := Fallible.bind_ok.mp h
  obtain ⟨-, -, -, planned, hplanned, hall⟩ := orderCandidates_spec (fun _ => false) s.effective.nodes
    s.effective.map.values
    ({ edges := requiredEdges (suppliersOf s.effective.nodes) s.effective.map.values, diagnostics := s.diagnostics }, [])
  have hsound : Sound hostCapabilities planned :=
    single_of_plan ((congrArg (planCapabilityGraph · hostCapabilities) hplanned).symm.trans hplan)
  exact (Planned.sound hall).mp hsound

/-- What the isolation returned, as the next one gets it. -/
theorem accepted_of_isolateCapabilityGraph {rounds : Nat} {candidates : List PluginCandidate}
    {previous : Candidates PluginCandidate} {r : Isolation PluginCandidate}
    (h : isolateCapabilityGraph rounds candidates hostCapabilities previous = some (.ok r)) :
    ∃ E, Candidates.ofList r.candidates = E ∧ r.candidates = E.map.values ∧ Accepted hostCapabilities E ∧
      ∀ id, id ∈ r.plan.activationOrder ↔ Running hostCapabilities E id := by
  obtain ⟨s, hnone, hplan⟩ := isolateGraph_inv h
  have hsettled := isolationRound_none hnone
  have hsound := sound_of_planIsolated hplan
  obtain ⟨r', hr', hcandidates, -, horder, -⟩ := planIsolated_ok hsound hsettled.cycles
  obtain rfl : r' = r := Except.ok.inj (hr'.symm.trans hplan)
  refine ⟨s.effective, Candidates.ext ?_, hcandidates,
    ⟨hsound, hsettled.cycles, fun a ha b hb key hka hkb => hsettled.web ha hb hka hkb⟩, horder⟩
  have hfold : ∀ (l : List PluginCandidate) (E : Candidates PluginCandidate),
      (l.foldl Candidates.put E).map = l.foldl (fun m c => m.set (idOf c) c) E.map := by
    intro l
    induction l with
    | nil => exact fun _ => rfl
    | cons c rest ih => exact fun E => ih (E.put c)
  unfold Candidates.ofList
  rw [hfold, hcandidates, InsertionMap.entries_foldl_set (fun _ _ => rfl) s.effective.nodup_values]
  unfold InsertionMap.values
  rw [List.map_map]
  refine (List.nil_append _).trans ((List.map_congr_left fun e he => ?_).trans (List.map_id _))
  exact Prod.ext (s.effective.keyed e.1 e.2 (InsertionMap.get?_eq_some.mpr he)) rfl

/-! ## The running members in another graph -/

/-- The same candidate, up to its identity as an object. -/
def Unchanged (p c : PluginCandidate) : Prop := ∃ object, c = { p with object }

theorem Unchanged.node {p c : PluginCandidate} (h : Unchanged p c) : node c = node p := by
  obtain ⟨object, rfl⟩ := h
  rfl

/-- A graph next to an accepted one: the running members are in it, and no id of the accepted graph has
become another candidate. -/
structure Beside (hostCapabilities : List Capability) (E F : Candidates PluginCandidate) : Prop where
  running : ∀ id, Running hostCapabilities E id → F.map.has id = true
  unchanged : ∀ id p c, E.map.get? id = some p → F.map.get? id = some c → Unchanged p c

section

variable {E F : Candidates PluginCandidate} {id : InstanceId} {p c : PluginCandidate} {capability : Capability}

theorem Beside.node_eq (h : Beside hostCapabilities E F) (hid : Running hostCapabilities E id)
    (hc : F.map.get? id = some c) : ∃ p, E.map.get? id = some p ∧ Unchanged p c := by
  obtain ⟨p, hp⟩ := Option.isSome_iff_exists.mp hid.1
  exact ⟨p, hp, h.unchanged id p c hp hc⟩

theorem mem_suppliers_of_get? (hc : F.map.get? id = some c) (hprovides : capability ∈ (node c).manifest.provides) :
    id ∈ suppliers F.nodes capability := by
  have hid : (node c).instanceId = id := F.keyed id c hc
  exact mem_suppliers.mpr (mem_provisions.mpr
    ⟨node c, List.mem_map_of_mem (InsertionMap.mem_values.mpr ⟨id, hc⟩), hid, hprovides⟩)

theorem provides_of_mem_suppliers (hc : F.map.get? id = some c) (h : id ∈ suppliers F.nodes capability) :
    capability ∈ (node c).manifest.provides := by
  obtain ⟨n, hn, rfl, hprovides⟩ := mem_provisions.mp (mem_suppliers.mp h)
  obtain ⟨c', hc', rfl⟩ := Candidates.mem_nodes.mp hn
  obtain rfl := Option.some.inj (hc'.symm.trans hc)
  exact hprovides

/-- A running member supplies in the other graph what it supplied, and nothing else. -/
theorem Beside.supplies_iff (h : Beside hostCapabilities E F) (hid : Running hostCapabilities E id) :
    id ∈ suppliers F.nodes capability ↔ id ∈ suppliers E.nodes capability := by
  obtain ⟨c, hc⟩ := Option.isSome_iff_exists.mp (h.running id hid)
  obtain ⟨p, hp, hsame⟩ := h.node_eq hid hc
  constructor
  · intro hmem
    exact mem_suppliers_of_get? hp (hsame.node ▸ provides_of_mem_suppliers hc hmem)
  · intro hmem
    exact mem_suppliers_of_get? hc (hsame.node ▸ provides_of_mem_suppliers hp hmem)

theorem Accepted.supplier (h : Accepted hostCapabilities E) (hid : id ∈ suppliers E.nodes capability) :
    supplier E.nodes capability = some id ∧ capability ∉ hostCapabilities :=
  ⟨h.sound.supplier (mem_suppliers.mp hid), h.sound.free _ (mem_suppliers.mp hid)⟩

theorem Accepted.confirmed (h : Accepted hostCapabilities E) (hid : id ∈ suppliers E.nodes capability) :
    (confirmedProviders E).get? capability = some id :=
  InsertionMap.get?_setAll_of_mem h.sound.single (mem_suppliers.mp hid)

/-- What a running member requires, the host or another running member provides. -/
theorem Running.required (hid : Running hostCapabilities E id) (hp : E.map.get? id = some p) (hrequires : capability ∈ (node p).manifest.requires)
    (hhost : capability ∉ hostCapabilities) :
    ∃ b, Running hostCapabilities E b ∧ PluginKernel.supplier E.nodes capability = some b := by
  have hkey : (node p).instanceId = id := E.keyed id p hp
  have hnode : node p ∈ E.nodes := List.mem_map_of_mem (InsertionMap.mem_values.mpr ⟨id, hp⟩)
  have hclosed : lacks hostCapabilities (suppliersOf E.nodes) (unavailable hostCapabilities E.nodes) (node p) = none :=
    saturate_closed hnode (hkey.symm ▸ hid.2)
  have hnot := (not_congr lacks_iff).mp (not_not.mpr hclosed)
  by_contra hnone
  refine hnot ⟨capability, hrequires, hhost, fun b hb => ?_⟩
  by_contra hwaits
  exact hnone ⟨b, ⟨key_of_provision (mem_of_supplier hb), Bool.eq_false_iff.mpr hwaits⟩, hb⟩

end

section

variable {E F : Candidates PluginCandidate} {id : InstanceId}

/-- A running member is in no conflict over a capability. -/
theorem Beside.unconflicting (h : Beside hostCapabilities E F) (hE : Accepted hostCapabilities E)
    (hid : Running hostCapabilities E id) : ¬Conflicting hostCapabilities E F.nodes id := by
  rintro ⟨capability, hmem, hconflict⟩
  have hsupplies := (h.supplies_iff hid).mp hmem
  rcases hconflict with hhost | ⟨-, hother⟩
  · exact (hE.supplier hsupplies).2 hhost
  · exact hother (hE.confirmed hsupplies).symm

/-- Where nobody is in conflict, a running member gets what it requires from the same member as before. -/
theorem Beside.supplier (h : Beside hostCapabilities E F) (hE : Accepted hostCapabilities E)
    (hnone : ∀ other, ¬Conflicting hostCapabilities E F.nodes other) {b : InstanceId} {capability : Capability}
    (hb : Running hostCapabilities E b) (hsupplier : PluginKernel.supplier E.nodes capability = some b) :
    PluginKernel.supplier F.nodes capability = some b := by
  have hmemE := mem_suppliers.mpr (mem_of_supplier hsupplier)
  have hmemF := (h.supplies_iff hb).mpr hmemE
  have hall : ∀ a ∈ suppliers F.nodes capability, a = b := by
    intro a ha
    by_contra hne
    have hmany : 1 < (suppliers F.nodes capability).length := by
      by_contra hfew
      obtain ⟨x, hx⟩ := List.length_eq_one_iff.mp (le_antisymm (not_lt.mp hfew) (List.length_pos_of_mem ha))
      rw [hx, List.mem_singleton] at ha hmemF
      exact hne (ha.trans hmemF.symm)
    refine hnone a ⟨capability, ha, .inr ⟨hmany, fun hconfirmed => hne ?_⟩⟩
    exact Option.some.inj (hconfirmed.trans (hE.confirmed hmemE))
  obtain ⟨a, ha⟩ := Option.isSome_iff_exists.mp (List.isSome_head?.mpr (List.ne_nil_of_mem hmemF))
  unfold PluginKernel.supplier
  rw [ha, hall a (List.mem_of_mem_head? ha)]

/-- A step from a running member leads to a running member, and was there before. -/
theorem Beside.step (h : Beside hostCapabilities E F) (hE : Accepted hostCapabilities E)
    (hnone : ∀ other, ¬Conflicting hostCapabilities E F.nodes other) {p c : PluginCandidate} {b : InstanceId}
    (hid : Running hostCapabilities E id) (hp : E.map.get? id = some p) (hc : F.map.get? id = some c)
    (hb : b ∈ requiredProviders (suppliersOf F.nodes) (node c)) : Running hostCapabilities E b ∧
      RunningEdge (unavailable hostCapabilities E.nodes) (requiredEdges (suppliersOf E.nodes) E.map.values) id b := by
  obtain ⟨hne, capability, hrequires, hsupplier⟩ := mem_requiredProviders.mp hb
  have hsame := (h.unchanged id p c hp hc).node
  rw [hsame] at hne hrequires
  have hhost : capability ∉ hostCapabilities := fun hhost =>
    hnone b ⟨capability, mem_suppliers.mpr (mem_of_supplier hsupplier), .inl hhost⟩
  obtain ⟨b', hb', hbefore⟩ := hid.required hp hrequires hhost
  obtain rfl := Option.some.inj ((h.supplier hE hnone hb' hbefore).symm.trans hsupplier)
  exact ⟨hb', hid.2, hb'.2, edgeOf_requiredEdges.mpr
    ⟨p, hp, mem_requiredProviders.mpr ⟨hne, capability, hrequires, hbefore⟩⟩⟩

/-- A running member is in no cycle of required capabilities. -/
theorem Beside.acyclic (h : Beside hostCapabilities E F) (hE : Accepted hostCapabilities E)
    (hnone : ∀ other, ¬Conflicting hostCapabilities E F.nodes other) (hid : Running hostCapabilities E id) :
    id ∉ requiredCycles F (suppliersOf F.nodes) hostCapabilities := by
  intro hcycle
  refine acyclic_required hE.cycles id ?_
  -- the path stays with the running members, so each of its steps was there before
  refine (path_within (fun a b ha hstep => ?_) hid (mem_findCycles hcycle)).2
  obtain ⟨c, hc⟩ := InsertionMap.mem_keys.mp hstep.1
  obtain ⟨p, hp, -⟩ := h.node_eq ha hc
  have hmem := hstep.2.2
  dsimp only at hmem
  rw [hc] at hmem
  exact h.step hE hnone ha hp hc hmem

/-- A running member has the confirmed revision of its web resource. -/
theorem Beside.web (h : Beside hostCapabilities E F) (hE : Accepted hostCapabilities E)
    (hid : Running hostCapabilities E id) : (conflictingWebResources F E).has id = false := by
  rw [Bool.eq_false_iff]
  intro hconflict
  obtain ⟨key, -, c, hc, rfl, hother⟩ := has_conflictingWebResources.mp hconflict
  obtain ⟨hlisted, hkey⟩ := List.mem_filter.mp hc
  obtain ⟨id, hget⟩ := InsertionMap.mem_values.mp hlisted
  obtain rfl := F.keyed id c hget
  obtain ⟨p, hp, object, rfl⟩ := h.node_eq hid hget
  have hkeyp : sharedWebResourceKey p = some key := by simpa [sharedWebResourceKey] using hkey
  have hvalue : p ∈ E.map.values := InsertionMap.mem_values.mpr ⟨_, hp⟩
  have hmem {revision : JsString} : revision ∈ confirmedRevisions E key ↔
      ∃ a ∈ E.map.values, sharedWebResourceKey a = some key ∧ a.revision = revision := by
    unfold confirmedRevisions
    simp [mem_addAll, List.mem_map, List.mem_filter, and_assoc]
  have hown : p.revision ∈ confirmedRevisions E key := hmem.mpr ⟨p, hvalue, hkeyp, rfl⟩
  refine hother ⟨le_antisymm ?_ (List.length_pos_of_mem hown), hown⟩
  -- all confirmed revisions are that of the running member
  have hall : ∀ revision ∈ confirmedRevisions E key, revision = p.revision := by
    intro revision hrevision
    obtain ⟨a, ha, hkeya, rfl⟩ := hmem.mp hrevision
    exact hE.web a ha p hvalue key hkeya hkeyp
  have hnodup : (confirmedRevisions E key).Nodup := nodup_addAll List.nodup_nil
  by_contra hmany
  rw [not_le] at hmany
  have hfirst := hall _ (List.getElem_mem (show 0 < (confirmedRevisions E key).length by omega))
  have hsecond := hall _ (List.getElem_mem hmany)
  have hindex := (List.Nodup.getElem_inj_iff hnodup).mp (hfirst.trans hsecond.symm)
  omega

/-- A running member is not found invalid. -/
theorem Beside.valid (h : Beside hostCapabilities E F) (hE : Accepted hostCapabilities E) (hid : Running
    hostCapabilities E id) : (invalidMembers conflictingWebResources hostCapabilities E F).has id = false := by
  rw [Bool.eq_false_iff]
  intro hinvalid
  rcases has_invalidMembers.mp hinvalid with (hweb | hconflict) | ⟨hnone, hcycle⟩
  · rw [h.web hE hid] at hweb
    cases hweb
  · exact h.unconflicting hE hid hconflict
  · exact h.acyclic hE (fun other => (hnone other).2) hid hcycle

/-- A running member still runs in a graph without conflicts. -/
theorem Beside.runs (h : Beside hostCapabilities E F) (hE : Accepted hostCapabilities E)
    (hnone : ∀ other, ¬Conflicting hostCapabilities E F.nodes other) (hid : Running hostCapabilities E id) :
    unavailable hostCapabilities F.nodes id = false := by
  rw [Bool.eq_false_iff]
  intro hwaits
  refine saturate_least (P := fun id => ¬Running hostCapabilities E id) ?_ hwaits hid
  intro n hn marked hmarked hlacks hrunning
  obtain ⟨capability, hrequires, hhost, hall⟩ := lacks_iff.mp hlacks
  obtain ⟨c, hc, rfl⟩ := Candidates.mem_nodes.mp hn
  obtain ⟨p, hp, hsame⟩ := h.node_eq hrunning hc
  obtain ⟨b, hb, hsupplier⟩ := hrunning.required hp (hsame.node ▸ hrequires) hhost
  exact hmarked b (hall b (h.supplier hE hnone hb hsupplier)) hb

end

/-! ## The rounds next to newcomers -/

/-- What every round keeps: the graph is beside the accepted one, and its running members are the candidates
of the list and have no diagnostic. -/
structure Undisturbed (hostCapabilities : List Capability) (E start : Candidates PluginCandidate)
    (s : IsolationState PluginCandidate) : Prop where
  beside : Beside hostCapabilities E s.effective
  listed : ∀ id, Running hostCapabilities E id → s.effective.map.get? id = start.map.get? id
  unnoted : ∀ id, Running hostCapabilities E id → s.diagnostics.get? id = none

theorem Undisturbed.round {E start : Candidates PluginCandidate} {s s' : IsolationState PluginCandidate} (hE : Accepted
    hostCapabilities E) (hs : Undisturbed hostCapabilities E start s) (hstep : isolationRound conflictingWebResources
    hostCapabilities E s = some s') : Undisturbed hostCapabilities E start s' := by
  obtain ⟨restores, heffect⟩ := isolationRound_effect aboutMembers_web hstep
  have hkept (id : InstanceId) (hid : Running hostCapabilities E id) :
      s'.effective.map.get? id = s.effective.map.get? id := heffect.kept id (hs.beside.valid hE hid)
  refine ⟨⟨fun id hid => ?_, fun id p c hp hc => ?_⟩, fun id hid => ?_, fun id hid => ?_⟩
  · unfold InsertionMap.has
    rw [hkept id hid]
    exact hs.beside.running id hid
  · rcases heffect.member hc with ⟨-, hold⟩ | hprevious
    · exact hs.beside.unchanged id p c hp hold
    · obtain rfl := Option.some.inj (hp.symm.trans hprevious)
      exact ⟨p.object, rfl⟩
  · rw [hkept id hid, hs.listed id hid]
  · refine Option.eq_none_iff_forall_ne_some.mpr fun d hd => ?_
    rcases heffect.noted id d hd with hold | ⟨hinvalid, -⟩
    · rw [hs.unnoted id hid] at hold
      cases hold
    · rw [hs.beside.valid hE hid] at hinvalid
      cases hinvalid

/-- What the members that ran get from the next isolation. -/
structure Undiminished (candidates : List PluginCandidate) (r₀ r : Isolation PluginCandidate) : Prop where
  returned : ∀ id ∈ r₀.plan.activationOrder, ∃ p ∈ r₀.candidates, p.instanceId = id ∧
    ∃ c ∈ candidates, Unchanged p c ∧ c ∈ r.candidates
  active : ∀ id ∈ r₀.plan.activationOrder, id ∈ r.plan.activationOrder
  diagnostics : ∀ id ∈ r₀.plan.activationOrder, ∀ d, r.diagnostics.get? id = some d → d.rejected = false

/-- Whatever is added to the candidates of an accepted graph, its running plugins are returned unchanged, run
again and are not rejected. -/
theorem isolateCapabilityGraph_keeps_running {hostCapabilities : List Capability} {rounds : Nat}
    {candidates₀ candidates : List PluginCandidate} {previous : Candidates PluginCandidate}
    {r₀ : Isolation PluginCandidate}
    (h : isolateCapabilityGraph rounds candidates₀ hostCapabilities previous = some (.ok r₀))
    (hids : (candidates.map idOf).Nodup) (hcontains : ∀ p ∈ r₀.candidates, ∃ c ∈ candidates, Unchanged p c) :
    ∃ r bound, (∀ n, bound < n →
        isolateCapabilityGraph n candidates hostCapabilities (.ofList r₀.candidates) = some (.ok r)) ∧
      Undiminished candidates r₀ r := by
  obtain ⟨E, rfl, hcandidates, hE, horder⟩ := accepted_of_isolateCapabilityGraph h
  generalize Candidates.ofList r₀.candidates = E at *
  obtain ⟨start, hstart, hmem⟩ := exists_effectiveOf hids
  have hunchanged (id : InstanceId) (p : PluginCandidate) (hp : E.map.get? id = some p) :
      ∃ c, start.map.get? id = some c ∧ Unchanged p c := by
    obtain ⟨c, hc, hsame⟩ := hcontains p (hcandidates ▸ InsertionMap.mem_values.mpr ⟨id, hp⟩)
    have hid : idOf c = id := (congrArg CapabilityGraphNode.instanceId hsame.node).trans (E.keyed id p hp)
    exact ⟨c, (hmem id c).mpr ⟨hc, hid⟩, hsame⟩
  have hfirst : Undisturbed hostCapabilities E start { effective := start } := by
    refine ⟨⟨fun id hid ↦ ?_, fun id p c hp hc ↦ ?_⟩, fun _ _ ↦ rfl, fun _ _ ↦ rfl⟩
    · obtain ⟨p, hp⟩ := Option.isSome_iff_exists.mp hid.1
      obtain ⟨c, hc, -⟩ := hunchanged id p hp
      exact Option.isSome_iff_exists.mpr ⟨c, hc⟩
    · obtain ⟨c', hc', hsame⟩ := hunchanged id p hp
      obtain rfl := Option.some.inj (hc'.symm.trans hc)
      exact hsame
  obtain ⟨s, bound, hs, hnone, hrun⟩ :=
    rounds_end aboutMembers_web (fun _ _ hs hstep ↦ Undisturbed.round hE hs hstep) hfirst
  have hsettled := isolationRound_none hnone
  -- a member that has a previous candidate is that candidate, whose capabilities are listed once
  have hsound : Sound hostCapabilities s.effective.nodes := by
    refine hsettled.sound fun n hn hprevious ↦ ?_
    obtain ⟨c, hc, rfl⟩ := Candidates.mem_nodes.mp hn
    obtain ⟨p, hp⟩ := Option.isSome_iff_exists.mp hprevious
    rw [(hs.beside.unchanged _ p c hp hc).node]
    have hnode : node p ∈ E.nodes := List.mem_map_of_mem (InsertionMap.mem_values.mpr ⟨_, hp⟩)
    have hsingle := hE.sound.single
    unfold provisions at hsingle
    rw [List.map_flatMap] at hsingle
    have hown := (List.nodup_flatMap.mp hsingle).1 _ hnode
    rwa [List.map_map, show Prod.fst ∘ _ = id from rfl, List.map_id] at hown
  obtain ⟨r, hr, hreturned, -, hactive, hdiagnostics⟩ := planIsolated_ok hsound hsettled.cycles
  refine ⟨r, bound, fun n hn ↦ ?_, ⟨fun id hid ↦ ?_, fun id hid ↦ ?_, fun id hid d hd ↦ ?_⟩⟩
  · unfold isolateCapabilityGraph isolateGraph
    rw [hstart]
    dsimp only
    rw [hrun n hn, Option.map_some, hr]
  · have hrunning := (horder id).mp hid
    obtain ⟨p, hp⟩ := Option.isSome_iff_exists.mp hrunning.1
    obtain ⟨c, hc, hsame⟩ := hunchanged id p hp
    refine ⟨p, hcandidates ▸ InsertionMap.mem_values.mpr ⟨id, hp⟩, E.keyed id p hp, c, ((hmem id c).mp hc).1, hsame, ?_⟩
    rw [hreturned]
    exact InsertionMap.mem_values.mpr ⟨id, (hs.listed id hrunning).trans hc⟩
  · have hrunning := (horder id).mp hid
    exact (hactive id).mpr ⟨hs.beside.running id hrunning, hs.beside.runs hE hsettled.unconflicting hrunning⟩
  · rw [Bool.eq_false_iff]
    intro hrejected
    have hnoted := hdiagnostics id d hd hrejected
    rw [hs.unnoted id ((horder id).mp hid)] at hnoted
    cases hnoted

/-- A newcomer that provides what the source provides. -/
def rival : PluginCandidate := pluginOf 4 (instanceNamed "c") ["a@1"] ["b@1"]

theorem rival_keeps_running : ∃ r₀, isolateCapabilityGraph 3 [source, consumer] [] .empty = some (.ok r₀) ∧
    r₀.plan.activationOrder = [source.instanceId, consumer.instanceId] ∧
    ∃ r bound, (∀ n, bound < n →
        isolateCapabilityGraph n [rival, source, consumer] [] (.ofList r₀.candidates) = some (.ok r)) ∧
      Undiminished [rival, source, consumer] r₀ r := by
  have hrun : (isolateCapabilityGraph 3 [source, consumer] [] .empty).bind (fun r ↦
      r.toOption.map fun r ↦ (r.candidates, r.plan.activationOrder)) =
        some ([source, consumer], [source.instanceId, consumer.instanceId]) := by decide +kernel
  obtain ⟨result, hresult, hok⟩ := Option.bind_eq_some_iff.mp hrun
  cases result with
  | error e => cases hok
  | ok r₀ =>
    obtain ⟨hcandidates, horder⟩ := Prod.mk.inj (Option.some.inj hok)
    refine ⟨r₀, hresult, horder, isolateCapabilityGraph_keeps_running hresult (by decide) ?_⟩
    rw [hcandidates]
    intro p hp
    exact ⟨p, List.mem_cons_of_mem rival hp, p.object, rfl⟩

end RabiRoute.PluginKernel
