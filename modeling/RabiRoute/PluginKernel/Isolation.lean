import RabiRoute.PluginKernel.IsolationPlanning

/-!
# Isolation is total, and keeps the running plugins

The rounds of `isolateGraph` end and the strict planner accepts what they leave.  A plugin that was
running stays in the graph, unchanged and running, whatever is added next to it.
-/

namespace RabiRoute.PluginKernel

open Collections Graphs Relation

variable {hostCapabilities : List Capability}

/-! ## One provider for each capability -/

section

variable {nodes : List CapabilityGraphNode} {capability : Capability}

theorem nodup_of_length_le_one {ι : Type} {l : List ι} (h : l.length ≤ 1) : l.Nodup := by
  cases l with
  | nil => exact List.nodup_nil
  | cons a rest =>
    have hrest : rest = [] := List.length_eq_zero_iff.mp (by simpa using h)
    rw [hrest]
    exact List.nodup_singleton a

theorem suppliers_cons (n : CapabilityGraphNode) : suppliers (n :: nodes) capability =
    (n.manifest.provides.filter fun c => decide (c = capability)).map (fun _ => n.instanceId) ++
      suppliers nodes capability := by
  unfold suppliers provisions
  rw [List.flatMap_cons, List.filter_append, List.map_append, List.filter_map, List.map_map]
  rfl

/-- Distinct instances whose manifests list a capability once supply it once each. -/
theorem suppliers_nodup (hids : (nodes.map CapabilityGraphNode.instanceId).Nodup) (honce : ∀ n ∈ nodes, n.instanceId ∈
    suppliers nodes capability → n.manifest.provides.Nodup) : (suppliers nodes capability).Nodup := by
  induction nodes with
  | nil => exact List.nodup_nil
  | cons n rest ih =>
    rw [List.map_cons, List.nodup_cons] at hids
    rw [suppliers_cons] at honce ⊢
    have hrest := ih hids.2 fun m hm hsupplies =>
      honce m (List.mem_cons_of_mem n hm) (List.mem_append_right _ hsupplies)
    refine List.nodup_append.mpr ⟨?_, hrest, fun a ha b hb => ?_⟩
    · by_cases hmem : capability ∈ n.manifest.provides
      · have hfilter : capability ∈ n.manifest.provides.filter fun c => decide (c = capability) :=
          List.mem_filter.mpr ⟨hmem, by simp⟩
        have hnodup := honce n List.mem_cons_self
          (List.mem_append_left _ (List.mem_map.mpr ⟨capability, hfilter, rfl⟩))
        have hlength : (n.manifest.provides.filter fun c => decide (c = capability)).length ≤ 1 := by
          rw [← List.countP_eq_length_filter]
          simpa [List.count, beq_eq_decide] using List.nodup_iff_count_le_one.mp hnodup capability
        exact nodup_of_length_le_one ((List.length_map _).trans_le hlength)
      · have hnil : (n.manifest.provides.filter fun c => decide (c = capability)) = [] :=
          List.filter_eq_nil_iff.mpr fun c hc h => hmem (by simpa using (of_decide_eq_true h) ▸ hc)
        rw [hnil]
        exact List.nodup_nil
    · rintro rfl
      obtain ⟨-, -, rfl⟩ := List.mem_map.mp ha
      obtain ⟨m, hm, hid, -⟩ := mem_provisions.mp (mem_suppliers.mp hb)
      exact hids.1 (List.mem_map.mpr ⟨m, hm, hid⟩)

theorem single_iff : ((provisions nodes).map Prod.fst).Nodup ↔
    ∀ capability, (suppliers nodes capability).length ≤ 1 := by
  rw [List.nodup_iff_count_le_one]
  refine forall_congr' fun capability => ?_
  unfold suppliers
  rw [List.length_map, List.count, List.countP_map, List.countP_eq_length_filter]
  simp only [Function.comp_def, beq_eq_decide]

end

section

variable {α : Type} [GraphCandidate α] {resourceConflicts : ResourceConflicts α} {previous effective : Candidates α}
  {id : InstanceId}

/-- Nobody is left in conflict, so several suppliers would all be the confirmed provider. -/
theorem Settled.confirmed (h : Settled resourceConflicts hostCapabilities previous effective) {capability : Capability}
    (hmany : 1 < (suppliers effective.nodes capability).length) {a : InstanceId}
    (ha : a ∈ suppliers effective.nodes capability) : (confirmedProviders previous).get? capability = some a := by
  by_contra hne
  exact h.unconflicting a ⟨capability, ha, .inr ⟨hmany, fun h => hne h.symm⟩⟩

theorem confirmed_previous {capability : Capability} {a : InstanceId}
    (h : (confirmedProviders previous).get? capability = some a) : previous.map.has a = true := by
  have hmem : (capability, a) ∈ provisions previous.nodes ∨
      (InsertionMap.empty : InsertionMap Capability InstanceId).get? capability = some a :=
    InsertionMap.get?_of_setAll h
  exact key_of_provision (hmem.resolve_right fun h => by cases h)

/-- A settled graph is one that the planner accepts, when the members with a previous candidate list each
capability once. -/
theorem Settled.sound (h : Settled resourceConflicts hostCapabilities previous effective)
    (honce : ∀ n ∈ effective.nodes, previous.map.has n.instanceId = true → n.manifest.provides.Nodup) :
    Sound hostCapabilities effective.nodes := by
  have hids : (effective.nodes.map CapabilityGraphNode.instanceId).Nodup := by
    rw [effective.ids_nodes]
    exact effective.map.nodup
  refine ⟨hids, single_iff.mpr fun capability => ?_, fun p hp hhost => ?_⟩
  · by_contra hmany
    rw [not_le] at hmany
    have hall (a : InstanceId) (ha : a ∈ suppliers effective.nodes capability) := h.confirmed hmany ha
    have hnodup := suppliers_nodup hids fun n hn hsupplies => honce n hn (confirmed_previous (hall _ hsupplies))
    -- two positions of a list without duplicates hold different instances
    have hfirst := hall _ (List.getElem_mem (show 0 < (suppliers effective.nodes capability).length by omega))
    have hsecond := hall _ (List.getElem_mem hmany)
    have hindex := (List.Nodup.getElem_inj_iff hnodup).mp (Option.some.inj (hfirst.symm.trans hsecond))
    omega
  · exact h.unconflicting p.2 ⟨p.1, mem_suppliers.mpr hp, .inl hhost⟩

end

/-! ## Shared web resources -/

/-- The members of a shared web resource. -/
def sharers (candidates : List PluginCandidate) (key : JsString × JsString) : List PluginCandidate :=
  candidates.filter fun c ↦ decide (sharedWebResourceKey c = some key)

theorem has_conflictsOfGroup {previous : Candidates PluginCandidate} {invalid : Errors} {a : InstanceId}
    {group : (JsString × JsString) × List PluginCandidate} :
    (conflictsOfGroup previous invalid group).has a = true ↔ invalid.has a = true ∨
      (1 < (addAll [] (group.2.map PluginCandidate.revision)).length ∧ ∃ c ∈ group.2, c.instanceId = a ∧
        ¬((confirmedRevisions previous group.1).length = 1 ∧ c.revision ∈ confirmedRevisions previous group.1)) := by
  unfold conflictsOfGroup
  split
  case isTrue hfew => simp [Nat.not_lt.mpr hfew]
  case isFalse hmany =>
    rw [not_le] at hmany
    dsimp only
    rw [has_foldl_set _ PluginCandidate.instanceId
      (fun c => (confirmedRevisions previous group.1).length = 1 ∧
        c.revision ∈ confirmedRevisions previous group.1)]
    simp only [hmany, true_and]

theorem has_conflictingWebResources {candidates previous : Candidates PluginCandidate} {a : InstanceId} :
    (conflictingWebResources candidates previous).has a = true ↔
      ∃ key, 1 < (addAll [] ((sharers candidates.map.values key).map PluginCandidate.revision)).length ∧
        ∃ c ∈ sharers candidates.map.values key, c.instanceId = a ∧
          ¬((confirmedRevisions previous key).length = 1 ∧ c.revision ∈ confirmedRevisions previous key) := by
  have hfold : ∀ (l : List ((JsString × JsString) × List PluginCandidate)) (invalid : Errors),
      (l.foldl (conflictsOfGroup previous) invalid).has a = true ↔ invalid.has a = true ∨ ∃ group ∈ l,
        1 < (addAll [] (group.2.map PluginCandidate.revision)).length ∧ ∃ c ∈ group.2, c.instanceId = a ∧
          ¬((confirmedRevisions previous group.1).length = 1 ∧
            c.revision ∈ confirmedRevisions previous group.1) := by
    intro l
    induction l with
    | nil => simp
    | cons group rest ih =>
      intro invalid
      rw [List.foldl_cons, ih, has_conflictsOfGroup, or_assoc]
      simp only [List.mem_cons, exists_eq_or_imp]
  have hsharers (key : JsString × JsString) : (candidates.map.values.filter fun c =>
      decide (sharedWebResourceKey c = some key)).map id = sharers candidates.map.values key := List.map_id _
  unfold conflictingWebResources webGroups
  rw [hfold]
  constructor
  · rintro (hempty | ⟨⟨key, members⟩, hmem, hconflict⟩)
    · cases hempty
    · obtain rfl := (InsertionMap.mem_groupBy hmem).trans (hsharers key)
      exact ⟨key, hconflict⟩
  · rintro ⟨key, hmany, c, hc, hconflict⟩
    have hentry := InsertionMap.exists_group ((hsharers key).symm ▸ hc)
    exact .inr ⟨_, hentry, (hsharers key).symm ▸ ⟨hmany, c, hc, hconflict⟩⟩

theorem aboutMembers_web : AboutMembers conflictingWebResources := by
  intro effective previous a h
  obtain ⟨key, -, c, hc, rfl, -⟩ := has_conflictingWebResources.mp h
  obtain ⟨a, ha⟩ := InsertionMap.mem_values.mp (List.mem_filter.mp hc).1
  rw [show c.instanceId = a from effective.keyed a c ha]
  exact Option.isSome_iff_exists.mpr ⟨c, ha⟩

/-- A settled graph has one revision of each shared web resource. -/
theorem Settled.web {previous effective : Candidates PluginCandidate} {a b : PluginCandidate}
    {key : JsString × JsString} (h : Settled conflictingWebResources hostCapabilities previous effective)
    (ha : a ∈ effective.map.values) (hb : b ∈ effective.map.values) (hka : sharedWebResourceKey a = some key)
    (hkb : sharedWebResourceKey b = some key) : a.revision = b.revision := by
  have hmem {c : PluginCandidate} (hc : c ∈ effective.map.values) (hkc : sharedWebResourceKey c = some key) :
      c ∈ sharers effective.map.values key := List.mem_filter.mpr ⟨hc, by simpa using hkc⟩
  have hlisted {c : PluginCandidate} (hc : c ∈ effective.map.values) (hkc : sharedWebResourceKey c = some key) :
      c.revision ∈ addAll [] ((sharers effective.map.values key).map PluginCandidate.revision) :=
    mem_addAll.mpr (.inr (List.mem_map_of_mem (hmem hc hkc)))
  by_contra hne
  have hmany : 1 < (addAll [] ((sharers effective.map.values key).map PluginCandidate.revision)).length := by
    by_contra hfew
    rw [not_lt] at hfew
    refine hne ?_
    have hone : (addAll [] ((sharers effective.map.values key).map PluginCandidate.revision)).length = 1 :=
      le_antisymm hfew (List.length_pos_of_mem (hlisted ha hka))
    obtain ⟨x, hx⟩ := List.length_eq_one_iff.mp hone
    have hxa := hlisted ha hka
    have hxb := hlisted hb hkb
    rw [hx, List.mem_singleton] at hxa hxb
    exact hxa.trans hxb.symm
  have hconfirmed {c : PluginCandidate} (hc : c ∈ effective.map.values) (hkc : sharedWebResourceKey c = some key) :
      (confirmedRevisions previous key).length = 1 ∧ c.revision ∈ confirmedRevisions previous key := by
    by_contra hnot
    have hhas := has_conflictingWebResources.mpr ⟨key, hmany, c, hmem hc hkc, rfl, hnot⟩
    rw [h.resources c.instanceId] at hhas
    cases hhas
  obtain ⟨x, hx⟩ := List.length_eq_one_iff.mp (hconfirmed ha hka).1
  have hax := (hconfirmed ha hka).2
  have hbx := (hconfirmed hb hkb).2
  rw [hx, List.mem_singleton] at hax hbx
  exact hne (hax.trans hbx.symm)
/-! ## The whole isolation -/

section

variable {α : Type} [GraphCandidate α] {resourceConflicts : ResourceConflicts α} {previous : Candidates α}
  {candidates : List α} {id : InstanceId}

theorem Candidates.ext {E F : Candidates α} (h : E.map.entries = F.map.entries) : E = F := by
  obtain ⟨m, hm⟩ := E
  obtain ⟨m', hm'⟩ := F
  obtain rfl : m = m' := InsertionMap.ext_entries h
  rfl

theorem effectiveOf_ok {effective : Candidates α} : effectiveOf candidates = .ok effective ↔
    (candidates.map idOf).Nodup ∧ effective.map.entries = candidates.map fun c => (idOf c, c) := by
  have hview : Function.Injective (Candidates.map : Candidates α → _) := fun E F h =>
    Candidates.ext (congrArg InsertionMap.entries h)
  have hput (E : Candidates α) (c : α) : (E.put c).map = E.map.set (idOf c) c := rfl
  unfold effectiveOf
  rw [InsertionMap.foldlM_set_ok (P := fun _ => True) hview hput]
  · simp [Candidates.empty]
  · intro E c E'
    cases hget : E.map.get? (idOf c) with
    | none => simpa [InsertionMap.has, hget] using eq_comm
    | some existing => simp [InsertionMap.has, hget]

/-- The map of the candidates, where their ids are distinct. -/
theorem exists_effectiveOf (hids : (candidates.map idOf).Nodup) :
    ∃ effective : Candidates α, effectiveOf candidates = .ok effective ∧
      ∀ id c, effective.map.get? id = some c ↔ c ∈ candidates ∧ idOf c = id := by
  let m : InsertionMap InstanceId α := ⟨candidates.map fun c => (idOf c, c), by simpa [Function.comp_def] using hids⟩
  have hmem (id : InstanceId) (c : α) : m.get? id = some c ↔ c ∈ candidates ∧ idOf c = id := by
    rw [InsertionMap.get?_eq_some, List.mem_map]
    constructor
    · rintro ⟨c', hc', hsame⟩
      obtain ⟨rfl, rfl⟩ := Prod.mk.inj hsame
      exact ⟨hc', rfl⟩
    · rintro ⟨hc, rfl⟩
      exact ⟨c, hc, rfl⟩
  exact ⟨⟨m, fun id c h => ((hmem id c).mp h).2⟩, effectiveOf_ok.mpr ⟨hids, rfl⟩, hmem⟩

variable [DecidableEq α]

/-- A candidate with a diagnostic is out of the graph, or is the previous candidate of its id. -/
def Dismissed (previous : Candidates α) (s : IsolationState α) : Prop :=
  ∀ id d, s.diagnostics.get? id = some d → idOf d.candidate = id ∧
    ∀ c, s.effective.map.get? id = some c → previous.map.get? id = some c

/-- The members are candidates or previous candidates. -/
def Known (candidates : List α) (previous : Candidates α) (s : IsolationState α) : Prop :=
  ∀ id c, s.effective.map.get? id = some c → c ∈ candidates ∨ previous.map.get? id = some c

omit [DecidableEq α] in
/-- A member after a round was one before, or is the previous candidate of its id. -/
theorem RoundEffect.member {s s' : IsolationState α} {invalid : Errors} {restores : Bool} {c : α}
    (h : RoundEffect previous invalid restores s s') (hc : s'.effective.map.get? id = some c) :
    (invalid.has id = false ∧ s.effective.map.get? id = some c) ∨ previous.map.get? id = some c := by
  cases hinvalid : invalid.has id with
  | false => exact .inl ⟨rfl, h.kept id hinvalid ▸ hc⟩
  | true =>
    rw [h.replaced id hinvalid] at hc
    cases restores with
    | true => exact .inr hc
    | false => cases hc

theorem Dismissed.round {s s' : IsolationState α} (hresources : AboutMembers resourceConflicts) (hs : Dismissed previous
    s) (hstep : isolationRound resourceConflicts hostCapabilities previous s = some s') : Dismissed previous s' := by
  obtain ⟨restores, heffect⟩ := isolationRound_effect hresources hstep
  intro id d hd
  rcases heffect.noted id d hd with hold | ⟨hinvalid, hmember⟩
  · refine ⟨(hs id d hold).1, fun c hc => ?_⟩
    exact (heffect.member hc).elim (fun h => (hs id d hold).2 c h.2) fun h => h
  · refine ⟨s.effective.keyed id d.candidate hmember, fun c hc => (heffect.member hc).resolve_left fun h => ?_⟩
    rw [hinvalid] at h
    cases h.1

theorem Known.round {s s' : IsolationState α} (hresources : AboutMembers resourceConflicts) (hs : Known candidates
    previous s) (hstep : isolationRound resourceConflicts hostCapabilities previous s = some s') : Known candidates
    previous s' := by
  obtain ⟨restores, heffect⟩ := isolationRound_effect hresources hstep
  exact fun id c hc => (heffect.member hc).elim (fun h => hs id c h.2) .inr

/-- What the parser of manifests promises: no capability twice, and none that the plugin provides itself. -/
structure Parsed (manifest : GraphManifest) : Prop where
  provides : manifest.provides.Nodup
  others : ∀ capability ∈ manifest.requires, capability ∉ manifest.provides

instance (manifest : GraphManifest) : Decidable (Parsed manifest) :=
  decidable_of_iff (manifest.provides.Nodup ∧ ∀ capability ∈ manifest.requires, capability ∉ manifest.provides)
    ⟨fun h ↦ ⟨h.1, h.2⟩, fun h ↦ ⟨h.1, h.2⟩⟩

/-- Both run, and one requires a capability that the other provides. -/
def RequiresRunning (waits : InstanceId → Bool) (nodes : List CapabilityGraphNode) (a b : InstanceId) : Prop :=
  waits a = false ∧ waits b = false ∧ ∃ n ∈ nodes, n.instanceId = a ∧
    ∃ capability ∈ n.manifest.requires, (capability, b) ∈ provisions nodes

/-- What holds of the result of an isolation. -/
structure WellIsolated (hostCapabilities : List Capability) (previous : Candidates α) (r : Isolation α) : Prop where
  single : ((provisions (r.candidates.map node)).map Prod.fst).Nodup
  free : ∀ p ∈ provisions (r.candidates.map node), p.1 ∉ hostCapabilities
  acyclic : Acyclic (RequiresRunning r.plan.waiting.has (r.candidates.map node))
  rejected : ∀ id d, r.diagnostics.get? id = some d → d.rejected = true → d.candidate ∈ r.candidates →
    previous.map.get? id = some d.candidate

omit [DecidableEq α] in
/-- In a sound graph the provider of a capability is its supplier. -/
theorem Sound.supplier {nodes : List CapabilityGraphNode} (h : Sound hostCapabilities nodes) {capability : Capability}
    {p : InstanceId} (hp : (capability, p) ∈ provisions nodes) : supplier nodes capability = some p := by
  have hmem := mem_suppliers.mpr hp
  have hone := single_iff.mp h.single capability
  unfold PluginKernel.supplier
  cases hlist : suppliers nodes capability with
  | nil =>
    rw [hlist] at hmem
    cases hmem
  | cons a rest =>
    rw [hlist] at hmem hone
    have hrest : rest = [] := List.length_eq_zero_iff.mp (by simpa using hone)
    rw [hrest, List.mem_singleton] at hmem
    rw [hmem]
    rfl

variable (hostCapabilities) in
/-- The rounds end in a graph that is settled, that the planner accepts, and whose members are known. -/
theorem isolateGraph_wellIsolated (hresources : AboutMembers resourceConflicts) (hids : (candidates.map idOf).Nodup)
    (hparsed : ∀ c ∈ candidates, Parsed (node c).manifest)
    (hprevious : ∀ c ∈ previous.map.values, Parsed (node c).manifest) :
    ∃ r bound effective, (∀ n, bound < n →
        isolateGraph resourceConflicts n candidates hostCapabilities previous = some (.ok r)) ∧
      r.candidates = effective.map.values ∧ Settled resourceConflicts hostCapabilities previous effective ∧
      WellIsolated hostCapabilities previous r := by
  obtain ⟨start, hstart, hmem⟩ := exists_effectiveOf hids
  have hkeep (s s' : IsolationState α) (hs : Dismissed previous s ∧ Known candidates previous s)
      (hstep : isolationRound resourceConflicts hostCapabilities previous s = some s') :
      Dismissed previous s' ∧ Known candidates previous s' :=
    ⟨hs.1.round hresources hstep, hs.2.round hresources hstep⟩
  have hfirst : Dismissed previous { effective := start } ∧ Known candidates previous { effective := start } :=
    ⟨fun _ _ hd => (by cases hd), fun id c hc => .inl ((hmem id c).mp hc).1⟩
  obtain ⟨s, bound, ⟨hdismissed, hknown⟩, hnone, hrun⟩ := rounds_end hresources hkeep hfirst
  have hsettled := isolationRound_none hnone
  have hparsed (n : CapabilityGraphNode) (hn : n ∈ s.effective.nodes) : Parsed n.manifest := by
    obtain ⟨c, hc, rfl⟩ := Candidates.mem_nodes.mp hn
    exact (hknown _ c hc).elim (hparsed c) fun h => hprevious c (InsertionMap.mem_values.mpr ⟨_, h⟩)
  have hsound := hsettled.sound fun n hn _ => (hparsed n hn).provides
  obtain ⟨r, hr, hcandidates, hwaiting, -, hdiagnostics⟩ := planIsolated_ok hsound hsettled.cycles
  refine ⟨r, bound, s.effective, fun n hn => ?_, hcandidates, hsettled, ?_⟩
  · unfold isolateGraph
    rw [hstart]
    dsimp only
    rw [hrun n hn, Option.map_some, hr]
  · have hnodes : r.candidates.map node = s.effective.nodes := congrArg (List.map node) hcandidates
    refine ⟨hnodes ▸ hsound.single, hnodes ▸ hsound.free, ?_, fun id d hd hrejected hlisted => ?_⟩
    · rw [hnodes, hwaiting]
      refine (acyclic_required hsettled.cycles).mono fun a b hab => ?_
      obtain ⟨ha, hb, n, hn, rfl, capability, hrequired, hprovided⟩ := hab
      obtain ⟨c, hc, rfl⟩ := Candidates.mem_nodes.mp hn
      have hsupplier := hsound.supplier hprovided
      refine ⟨ha, hb, edgeOf_requiredEdges.mpr ⟨c, hc, mem_requiredProviders.mpr ⟨?_, capability, hrequired, hsupplier⟩⟩⟩
      rintro rfl
      -- the member itself would provide what it requires
      obtain ⟨n', hn', hsame, hprovides⟩ := mem_provisions.mp hprovided
      obtain rfl := List.inj_on_of_nodup_map hsound.ids hn' hn hsame
      exact (hparsed _ hn).others capability hrequired hprovides
    · obtain ⟨hid, hprevious⟩ := hdismissed id d (hdiagnostics id d hd hrejected)
      rw [hcandidates] at hlisted
      obtain ⟨id', hget⟩ := InsertionMap.mem_values.mp hlisted
      obtain rfl := (s.effective.keyed id' d.candidate hget).symm.trans hid
      exact hprevious d.candidate hget

end

/-- The candidates agree on the revision of each web resource that they share. -/
def OneRevision (candidates : List PluginCandidate) : Prop :=
  ∀ a ∈ candidates, ∀ b ∈ candidates, ∀ key, sharedWebResourceKey a = some key → sharedWebResourceKey b = some key →
    a.revision = b.revision

def instanceNamed (text : String) (h : js text ≠ [] := by decide) (h' : (js text).trim = js text := by decide) :
    InstanceId :=
  ⟨js text, h, h'⟩

/-- A plugin without a web entry. -/
def pluginOf (object : Nat) (instanceId : InstanceId) (provides requires : List String) : PluginCandidate where
  object
  instanceId
  revision := js "one"
  manifest := { provides := provides.map js, requires := requires.map js, optional := [], id := js "io.test.plugin",
                version := js "1.0.0", web := false }

def source : PluginCandidate := pluginOf 0 (instanceNamed "a") ["a@1"] []

def consumer : PluginCandidate := pluginOf 1 (instanceNamed "b") ["b@1"] ["a@1"]

/-- An update of the source that requires what its consumer provides. -/
def cyclicSource : PluginCandidate := pluginOf 2 (instanceNamed "a") ["a@1"] ["b@1"]

def doubleSource : PluginCandidate := pluginOf 3 (instanceNamed "a") ["a@1", "a@1"] []

end RabiRoute.PluginKernel
