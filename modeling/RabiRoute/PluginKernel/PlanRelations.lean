import RabiRoute.PluginKernel.Planning

/-!
# What a plan says of the graph

Who waits and what comes before what, as relations of the graph alone: the order in which the candidates are given
does not occur in them.  The planner computes these relations, and it refuses exactly the graphs that have no plan.
-/

namespace RabiRoute.PluginKernel

open Collections Graphs Fallible

variable {nodes nodes' : List CapabilityGraphNode} {hostCapabilities : List Capability} {capability : Capability}
  {id p d : InstanceId} {c : CapabilityGraphNode}

/-- The candidate `p` provides the capability. -/
def Provides (nodes : List CapabilityGraphNode) (p : InstanceId) (capability : Capability) : Prop :=
  ∃ c ∈ nodes, c.instanceId = p ∧ capability ∈ c.manifest.provides

/-- The candidates that cannot run: one that requires what neither the host nor a running candidate provides. -/
inductive Waits (hostCapabilities : List Capability) (nodes : List CapabilityGraphNode) : InstanceId → Prop
  | intro (c : CapabilityGraphNode) (member : c ∈ nodes) (capability : Capability)
      (required : capability ∈ c.manifest.requires) (foreign : capability ∉ hostCapabilities)
      (providers : ∀ p, Provides nodes p capability → Waits hostCapabilities nodes p) :
      Waits hostCapabilities nodes c.instanceId

/-- The candidate requires a capability that neither the host nor a running candidate provides. -/
def Lacks (hostCapabilities : List Capability) (nodes : List CapabilityGraphNode) (c : CapabilityGraphNode)
    (capability : Capability) : Prop :=
  capability ∈ c.manifest.requires ∧ capability ∉ hostCapabilities ∧
    ∀ p, Provides nodes p capability → Waits hostCapabilities nodes p

theorem waits_iff : Waits hostCapabilities nodes id ↔
    ∃ c ∈ nodes, c.instanceId = id ∧ ∃ capability, Lacks hostCapabilities nodes c capability := by
  constructor
  · rintro ⟨c, hc, capability, hrequired, hforeign, hproviders⟩
    exact ⟨c, hc, rfl, capability, hrequired, hforeign, hproviders⟩
  · rintro ⟨c, hc, rfl, capability, hrequired, hforeign, hproviders⟩
    exact ⟨c, hc, capability, hrequired, hforeign, hproviders⟩

/-- `d` needs a capability of the other candidate `p`, one of those in the lists `needs`. -/
def DependsOn (needs : GraphManifest → List Capability) (nodes : List CapabilityGraphNode) (d p : InstanceId) : Prop :=
  p ≠ d ∧ ∃ c ∈ nodes, c.instanceId = d ∧ ∃ capability ∈ needs c.manifest, Provides nodes p capability

/-- Both run, and `d` requires a capability of `p` or has an optional one. -/
def Follows (hostCapabilities : List Capability) (nodes : List CapabilityGraphNode) (d p : InstanceId) : Prop :=
  ¬Waits hostCapabilities nodes d ∧ ¬Waits hostCapabilities nodes p ∧
    DependsOn (fun manifest ↦ manifest.requires ++ manifest.optional) nodes d p

/-- The graphs that have no plan. -/
def Refused (hostCapabilities : List Capability) (nodes : List CapabilityGraphNode) : Prop :=
  (∃ c ∈ nodes, ∃ capability ∈ c.manifest.provides, capability ∈ hostCapabilities) ∨
    (∃ c ∈ nodes, ∃ c' ∈ nodes, c.instanceId ≠ c'.instanceId ∧
      ∃ capability, capability ∈ c.manifest.provides ∧ capability ∈ c'.manifest.provides) ∨
    ¬Acyclic (Follows hostCapabilities nodes)

/-! ## The order of the candidates does not matter -/

section

variable (hsame : ∀ c, c ∈ nodes ↔ c ∈ nodes')

include hsame

theorem Provides.congr (h : Provides nodes p capability) : Provides nodes' p capability := by
  obtain ⟨c, hc, hid, hprovides⟩ := h
  exact ⟨c, (hsame c).mp hc, hid, hprovides⟩

theorem Waits.congr (h : Waits hostCapabilities nodes id) : Waits hostCapabilities nodes' id := by
  induction h with
  | intro c member capability required foreign providers ih =>
    exact .intro c ((hsame c).mp member) capability required foreign
      fun p hp => ih p (hp.congr fun c => (hsame c).symm)

theorem waits_congr : Waits hostCapabilities nodes id ↔ Waits hostCapabilities nodes' id :=
  ⟨Waits.congr hsame, Waits.congr fun c => (hsame c).symm⟩

theorem Lacks.congr (h : Lacks hostCapabilities nodes c capability) : Lacks hostCapabilities nodes' c capability :=
  ⟨h.1, h.2.1, fun p hp => (h.2.2 p (hp.congr fun c => (hsame c).symm)).congr hsame⟩

theorem DependsOn.congr {needs : GraphManifest → List Capability} (h : DependsOn needs nodes d p) :
    DependsOn needs nodes' d p := by
  obtain ⟨hne, c, hc, hid, capability, hneeds, hprovides⟩ := h
  exact ⟨hne, c, (hsame c).mp hc, hid, capability, hneeds, hprovides.congr hsame⟩

theorem Follows.congr (h : Follows hostCapabilities nodes d p) : Follows hostCapabilities nodes' d p :=
  ⟨fun hd => h.1 ((waits_congr hsame).mpr hd), fun hp => h.2.1 ((waits_congr hsame).mpr hp), h.2.2.congr hsame⟩

end

/-! ## What the planner computes -/

theorem Sound.provider (h : Sound hostCapabilities nodes) :
    PluginKernel.supplier nodes capability = some p ↔ Provides nodes p capability := by
  rw [Provides, ← mem_provisions]
  constructor
  · exact mem_of_supplier
  · intro hp
    have hget : (⟨provisions nodes, h.single⟩ : InsertionMap Capability InstanceId).get? capability = some p :=
      InsertionMap.get?_eq_some.mpr hp
    rwa [get?_of_provisions rfl] at hget

theorem Sound.unavailable_iff (h : Sound hostCapabilities nodes) :
    unavailable hostCapabilities nodes id = true ↔ Waits hostCapabilities nodes id := by
  constructor
  · refine saturate_least fun c hc marked hmarked hcondemned => ?_
    obtain ⟨capability, hrequired, hforeign, hall⟩ := lacks_iff.mp hcondemned
    exact .intro c hc capability hrequired hforeign fun p hp => hmarked p (hall p (h.provider.mpr hp))
  · intro hwaits
    induction hwaits with
    | intro c member capability required foreign providers ih =>
      by_contra hnew
      have hclosed := saturate_closed member (Bool.not_eq_true _ ▸ hnew)
      exact lacks_iff.mpr ⟨capability, required, foreign, fun p hp => ih p (h.provider.mp hp)⟩ hclosed

theorem Sound.unavailable_eq_false (h : Sound hostCapabilities nodes) :
    unavailable hostCapabilities nodes id = false ↔ ¬Waits hostCapabilities nodes id := by
  rw [← h.unavailable_iff, Bool.not_eq_true]

theorem Sound.perm (h : Sound hostCapabilities nodes) (hperm : nodes.Perm nodes') : Sound hostCapabilities nodes' := by
  have hprovisions : (provisions nodes).Perm (provisions nodes') := hperm.flatMap_right _
  exact ⟨(hperm.map _).nodup_iff.mp h.ids, (hprovisions.map _).nodup_iff.mp h.single,
    fun q hq => h.free q (hprovisions.mem_iff.mpr hq)⟩

theorem provisions_fst : (provisions nodes).map Prod.fst = nodes.flatMap fun c => c.manifest.provides := by
  unfold provisions
  rw [List.map_flatMap]
  simp only [List.map_map, Function.comp_def, List.map_id']

/-- What the planner asks of the providers. -/
theorem sound_iff (hids : (nodes.map CapabilityGraphNode.instanceId).Nodup) : Sound hostCapabilities nodes ↔
    (∀ c ∈ nodes, c.manifest.provides.Nodup) ∧
    (¬∃ c ∈ nodes, ∃ capability ∈ c.manifest.provides, capability ∈ hostCapabilities) ∧
    (¬∃ c ∈ nodes, ∃ c' ∈ nodes, c.instanceId ≠ c'.instanceId ∧
      ∃ capability, capability ∈ c.manifest.provides ∧ capability ∈ c'.manifest.provides) := by
  have hdistinct := List.pairwise_map.mp hids
  constructor
  · intro h
    have hsingle := h.single
    rw [provisions_fst, List.nodup_flatMap] at hsingle
    refine ⟨hsingle.1, ?_, ?_⟩
    · rintro ⟨c, hc, capability, hprovides, hhost⟩
      exact h.free (capability, c.instanceId) (mem_provisions.mpr ⟨c, hc, rfl, hprovides⟩) hhost
    · rintro ⟨c, hc, c', hc', hne, capability, hprovides, hprovides'⟩
      have hone := h.provider.mpr ⟨c, hc, rfl, hprovides⟩
      have htwo := h.provider.mpr ⟨c', hc', rfl, hprovides'⟩
      exact hne (Option.some.inj (hone.symm.trans htwo))
  · rintro ⟨hnodup, hfree, hsingle⟩
    refine ⟨hids, ?_, ?_⟩
    · rw [provisions_fst, List.nodup_flatMap]
      refine ⟨hnodup, hdistinct.imp_of_mem fun {c c'} hc hc' hne => ?_⟩
      intro capability hprovides hprovides'
      exact hsingle ⟨c, hc, c', hc', hne, capability, hprovides, hprovides'⟩
    · rintro ⟨capability, p⟩ hp hhost
      obtain ⟨c, hc, -, hprovides⟩ := mem_provisions.mp hp
      exact hfree ⟨c, hc, capability, hprovides, hhost⟩

/-! ## The planner, as one equation -/

/-- The candidates that run. -/
def runningOf (hostCapabilities : List Capability) (nodes : List CapabilityGraphNode) : List CapabilityGraphNode :=
  nodes.filter fun c ↦ !unavailable hostCapabilities nodes c.instanceId

def Sound.providers (h : Sound hostCapabilities nodes) : InsertionMap Capability InstanceId :=
  ⟨provisions nodes, h.single⟩

theorem Sound.get?_providers (h : Sound hostCapabilities nodes) :
    h.providers.get? capability = some p ↔ Provides nodes p capability := by
  rw [← h.provider]
  exact (congrArg (· = some p) (get?_of_provisions rfl)).to_iff

def Sound.needs (h : Sound hostCapabilities nodes) (c : CapabilityGraphNode) : List InstanceId :=
  dependencyProviders h.providers (unavailable hostCapabilities nodes) c

def Sound.counts (h : Sound hostCapabilities nodes) : Counts := countAll h.needs (runningOf hostCapabilities nodes)

def Sound.plan (h : Sound hostCapabilities nodes) : CapabilityGraphPlan where
  activationOrder := takeAll byText h.counts.2 h.counts.1
  waiting := saturate nodes CapabilityGraphNode.instanceId (missing hostCapabilities h.providers)
  providers := h.providers
  dependents := h.counts.2.mapValues byText.sort

theorem mem_runningOf : c ∈ runningOf hostCapabilities nodes ↔
    c ∈ nodes ∧ unavailable hostCapabilities nodes c.instanceId = false := by
  unfold runningOf
  rw [List.mem_filter, Bool.not_eq_true']

theorem Sound.runningIds (h : Sound hostCapabilities nodes) :
    ((runningOf hostCapabilities nodes).map CapabilityGraphNode.instanceId).Nodup :=
  h.ids.sublist (List.filter_sublist.map _)

theorem Sound.counted (h : Sound hostCapabilities nodes) :
    Counted (needsOf h.needs (runningOf hostCapabilities nodes)) h.counts.1 h.counts.2 :=
  counted_countAll h.runningIds fun _ => nodup_addAll List.nodup_nil

theorem Sound.has_counts (h : Sound hostCapabilities nodes) : h.counts.1.has d = true ↔
    (∃ c ∈ nodes, c.instanceId = d) ∧ ¬Waits hostCapabilities nodes d := by
  unfold Sound.counts
  rw [has_countAll h.needs h.runningIds, ← h.unavailable_eq_false]
  constructor
  · rintro ⟨c, hc, rfl⟩
    exact ⟨⟨c, (mem_runningOf.mp hc).1, rfl⟩, (mem_runningOf.mp hc).2⟩
  · rintro ⟨⟨c, hc, rfl⟩, hrun⟩
    exact ⟨c, mem_runningOf.mpr ⟨hc, hrun⟩, rfl⟩

/-- The needs of a running candidate are what it follows. -/
theorem Sound.mem_needs (h : Sound hostCapabilities nodes) :
    h.counts.1.has d = true ∧ p ∈ needsOf h.needs (runningOf hostCapabilities nodes) d ↔
      Follows hostCapabilities nodes d p := by
  constructor
  · rintro ⟨hd, hp⟩
    obtain ⟨⟨c, hc, rfl⟩, hrun⟩ := h.has_counts.mp hd
    rw [needsOf_eq h.runningIds (mem_runningOf.mpr ⟨hc, h.unavailable_eq_false.mpr hrun⟩)] at hp
    obtain ⟨hne, hprun, capability, hmem, hget⟩ := mem_dependencyProviders.mp hp
    refine ⟨hrun, h.unavailable_eq_false.mp hprun, hne, c, hc, rfl, capability, hmem, ?_⟩
    exact h.get?_providers.mp hget
  · rintro ⟨hd, hp, hne, c, hc, rfl, capability, hmem, hprovides⟩
    refine ⟨h.has_counts.mpr ⟨⟨c, hc, rfl⟩, hd⟩, ?_⟩
    rw [needsOf_eq h.runningIds (mem_runningOf.mpr ⟨hc, h.unavailable_eq_false.mpr hd⟩)]
    refine mem_dependencyProviders.mpr ⟨hne, h.unavailable_eq_false.mpr hp, capability, hmem, ?_⟩
    exact h.get?_providers.mpr hprovides

theorem Sound.has_of_follows (h : Sound hostCapabilities nodes) (hfollows : Follows hostCapabilities nodes d p) :
    h.counts.1.has p = true := by
  obtain ⟨-, hrun, -, -, -, -, -, -, c, hc, rfl, -⟩ := hfollows
  exact h.has_counts.mpr ⟨⟨c, hc, rfl⟩, hrun⟩

/-- The last step of the planner. -/
theorem Sound.planned (h : Sound hostCapabilities nodes) :
    if h.plan.activationOrder.length = h.counts.1.keys.length then
      planCapabilityGraph nodes hostCapabilities = .ok h.plan
    else ∃ error, planCapabilityGraph nodes hostCapabilities = .error error := by
  have hunique : uniqueCandidates nodes = .ok ⟨nodes.map fun c => (c.instanceId, c),
      by simpa [Function.comp_def] using h.ids⟩ := uniqueCandidates_ok.mpr ⟨h.ids, rfl⟩
  have hvalues : (⟨nodes.map fun c => (c.instanceId, c), by simpa [Function.comp_def] using h.ids⟩ :
      InsertionMap InstanceId CapabilityGraphNode).values = nodes := by
    simp [InsertionMap.values, Function.comp_def]
  have hproviders : (provisions nodes).foldlM (addProvider hostCapabilities) .empty = .ok h.providers :=
    addProviders_ok.mpr ⟨h.free, h.single, rfl⟩
  have hwaits : (saturate nodes CapabilityGraphNode.instanceId (missing hostCapabilities h.providers)).has =
      unavailable hostCapabilities nodes := waiting_has rfl
  unfold planCapabilityGraph
  rw [hunique]
  dsimp only [bind, Except.bind]
  rw [hvalues, hproviders]
  dsimp only
  rw [hwaits]
  have hkeys : h.counts.1.keys.length = h.counts.1.entries.length := List.length_map _
  split
  · rename_i hall
    exact if_neg (not_not.mpr (hall.trans hkeys))
  · rename_i hcycle
    exact ⟨_, if_pos fun heq => hcycle (heq.trans hkeys.symm)⟩

/-- The graphs without a cycle are planned, and the others are refused. -/
theorem Sound.planned_iff (h : Sound hostCapabilities nodes) :
    (Acyclic (Follows hostCapabilities nodes) → planCapabilityGraph nodes hostCapabilities = .ok h.plan) ∧
      (¬Acyclic (Follows hostCapabilities nodes) →
        ∃ error, planCapabilityGraph nodes hostCapabilities = .error error) := by
  have hplanned := h.planned
  have hinside : ∀ d p, h.counts.1.has d = true →
      p ∈ needsOf h.needs (runningOf hostCapabilities nodes) d → h.counts.1.has p = true := fun d p hd hp =>
    h.has_of_follows (h.mem_needs.mp ⟨hd, hp⟩)
  constructor
  · intro hacyclic
    have hperm := takeAll_complete byText h.counted hinside
      (hacyclic.mono fun d p hdp => h.mem_needs.mp hdp)
    rwa [if_pos] at hplanned
    exact hperm.length_eq
  · intro hcycle
    rwa [if_neg] at hplanned
    intro hlength
    exact hcycle ((acyclic_of_takeAll byText h.counted hlength).2.mono fun d p hdp => h.mem_needs.mpr hdp)

theorem Refused.error (h : Refused hostCapabilities nodes) :
    ∃ error, planCapabilityGraph nodes hostCapabilities = .error error := by
  cases hplan : planCapabilityGraph nodes hostCapabilities with
  | error error => exact ⟨error, rfl⟩
  | ok plan =>
    have hsound := single_of_plan hplan
    obtain ⟨-, hfree, hsingle⟩ := (sound_iff hsound.ids).mp hsound
    rcases h with hhost | htwo | hcycle
    · exact absurd hhost hfree
    · exact absurd htwo hsingle
    · obtain ⟨error, herror⟩ := hsound.planned_iff.2 hcycle
      cases herror.symm.trans hplan

/-- A graph that is not refused has a plan, if no candidate lists a capability twice. -/
theorem planned_of_not_refused (hids : (nodes.map CapabilityGraphNode.instanceId).Nodup)
    (hnodup : ∀ c ∈ nodes, c.manifest.provides.Nodup) (h : ¬Refused hostCapabilities nodes) :
    ∃ hsound : Sound hostCapabilities nodes, Acyclic (Follows hostCapabilities nodes) ∧
      planCapabilityGraph nodes hostCapabilities = .ok hsound.plan := by
  unfold Refused at h
  rw [not_or, not_or, not_not] at h
  have hsound := (sound_iff hids).mpr ⟨hnodup, h.1, h.2.1⟩
  exact ⟨hsound, h.2.2, hsound.planned_iff.1 h.2.2⟩

end RabiRoute.PluginKernel
