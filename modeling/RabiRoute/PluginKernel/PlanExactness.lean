import RabiRoute.PluginKernel.PlanRelations

/-!
# The plan and the order of the candidates

The order of activation, the providers and the dependents are those of the graph, in whatever order the candidates are
given.  The entries of `waiting` are not: an entry is written when the loop first finds that a candidate lacks
something, and what turns out to be missing later is not added to it.
-/

namespace RabiRoute.PluginKernel

open Collections Graphs Fallible

variable {nodes nodes' : List CapabilityGraphNode} {hostCapabilities : List Capability} {capability : Capability}
  {id p d : InstanceId} {c : CapabilityGraphNode}

/-- A plan that says what the graph says. -/
structure CorrectPlan (hostCapabilities : List Capability) (nodes : List CapabilityGraphNode)
    (plan : CapabilityGraphPlan) : Prop where
  once : plan.activationOrder.Nodup
  running : ∀ id, id ∈ plan.activationOrder ↔ (∃ c ∈ nodes, c.instanceId = id) ∧ plan.waiting.has id = false
  required : ∀ before d after, plan.activationOrder = before ++ d :: after →
    ∀ p, DependsOn GraphManifest.requires nodes d p → p ∈ before
  optional : ∀ before d after, plan.activationOrder = before ++ d :: after →
    ∀ p, DependsOn GraphManifest.optional nodes d p → plan.waiting.has p = false → p ∈ before
  waits : ∀ id, plan.waiting.has id = true ↔ Waits hostCapabilities nodes id
  entries : ∀ c ∈ nodes, ∀ entry, plan.waiting.get? c.instanceId = some entry →
    ∀ capability, capability ∈ entry ↔ Lacks hostCapabilities nodes c capability

/-- Two plans with the same maps. -/
structure SamePlan (plan plan' : CapabilityGraphPlan) : Prop where
  activationOrder : plan.activationOrder = plan'.activationOrder
  waiting : ∀ id, plan.waiting.get? id = plan'.waiting.get? id
  providers : ∀ capability, plan.providers.get? capability = plan'.providers.get? capability
  dependents : ∀ id, plan.dependents.get? id = plan'.dependents.get? id

/-- The planner throws for the graphs that have no plan, the plan of another graph is correct, and another order of
the candidates has the same plan. -/
structure PlansGraph (hostCapabilities : List Capability) (nodes : List CapabilityGraphNode) : Prop where
  throws : (∃ error, planCapabilityGraph nodes hostCapabilities = .error error) ↔ Refused hostCapabilities nodes
  correct : ∀ plan, planCapabilityGraph nodes hostCapabilities = .ok plan → CorrectPlan hostCapabilities nodes plan
  orderFree : ∀ plan, planCapabilityGraph nodes hostCapabilities = .ok plan → ∀ nodes', nodes.Perm nodes' →
    ∃ plan', planCapabilityGraph nodes' hostCapabilities = .ok plan' ∧ SamePlan plan plan'

/-- All that a candidate lacks has the same provider, or none. -/
def SingleCause (hostCapabilities : List Capability) (nodes : List CapabilityGraphNode) : Prop :=
  ∀ c ∈ nodes, ∀ a b, Lacks hostCapabilities nodes c a → Lacks hostCapabilities nodes c b →
    ∀ p, Provides nodes p a → Provides nodes p b

/-! ## The order of activation -/

theorem byText_sorted (ids : List InstanceId) : (byText.sort ids).Pairwise fun a b => a.text ≤ b.text := by
  have hsorted := @List.pairwise_mergeSort InstanceId (fun a b => decide (a.text ≤ b.text))
    (fun a b c hab hbc => decide_eq_true (List.le_trans (of_decide_eq_true hab) (of_decide_eq_true hbc)))
    (fun a b => by
      rw [Bool.or_eq_true, decide_eq_true_eq, decide_eq_true_eq]
      exact List.le_total a.text b.text) ids
  exact hsorted.imp of_decide_eq_true

theorem text_antisymm (a b : InstanceId) (hab : a.text ≤ b.text) (hba : b.text ≤ a.text) : a = b := by
  have htext := List.le_antisymm hab hba
  cases a
  cases b
  cases htext
  rfl

theorem byText_congr {ids ids' : List InstanceId} (h : ids.Perm ids') : byText.sort ids = byText.sort ids' := by
  refine List.Perm.eq_of_pairwise (fun a b _ _ => text_antisymm a b) (byText_sorted ids) (byText_sorted ids') ?_
  exact ((byText.perm ids).trans h).trans (byText.perm ids').symm

theorem Sound.waiting_has (h : Sound hostCapabilities nodes) :
    h.plan.waiting.has id = true ↔ Waits hostCapabilities nodes id := by
  rw [← h.unavailable_iff]
  have hhas : h.plan.waiting.has = unavailable hostCapabilities nodes := PluginKernel.waiting_has rfl
  exact (congrArg (· = true) (congrFun hhas id)).to_iff

theorem Sound.waiting_has_false (h : Sound hostCapabilities nodes) :
    h.plan.waiting.has id = false ↔ ¬Waits hostCapabilities nodes id := by
  rw [← h.waiting_has, Bool.not_eq_true]

/-- What a running candidate requires of another candidate is running. -/
theorem Sound.follows_required (h : Sound hostCapabilities nodes) (hd : ¬Waits hostCapabilities nodes d)
    (hdepends : DependsOn GraphManifest.requires nodes d p) : Follows hostCapabilities nodes d p := by
  obtain ⟨hne, c, hc, rfl, capability, hrequired, hprovides⟩ := hdepends
  refine ⟨hd, fun hp => hd ?_, hne, c, hc, rfl, capability, List.mem_append_left _ hrequired, hprovides⟩
  refine .intro c hc capability hrequired ?_ fun q hq => ?_
  · exact h.free (capability, p) (mem_provisions.mpr hprovides)
  · exact Option.some.inj ((h.provider.mpr hprovides).symm.trans (h.provider.mpr hq)) ▸ hp

theorem follows_optional (hd : ¬Waits hostCapabilities nodes d) (hp : ¬Waits hostCapabilities nodes p)
    (hdepends : DependsOn GraphManifest.optional nodes d p) : Follows hostCapabilities nodes d p := by
  obtain ⟨hne, c, hc, hid, capability, hoptional, hprovides⟩ := hdepends
  exact ⟨hd, hp, hne, c, hc, hid, capability, List.mem_append_right _ hoptional, hprovides⟩

/-- The order of activation is complete, and each candidate comes after what it follows. -/
theorem Sound.activation (h : Sound hostCapabilities nodes) (hacyclic : Acyclic (Follows hostCapabilities nodes)) :
    h.plan.activationOrder.Nodup ∧
      (∀ id, id ∈ h.plan.activationOrder ↔
        (∃ c ∈ nodes, c.instanceId = id) ∧ h.plan.waiting.has id = false) ∧
      ∀ before d after, h.plan.activationOrder = before ++ d :: after →
        ∀ p, Follows hostCapabilities nodes d p → p ∈ before := by
  have hinside : ∀ d p, h.counts.1.has d = true →
      p ∈ needsOf h.needs (runningOf hostCapabilities nodes) d → h.counts.1.has p = true := fun d p hd hp =>
    h.has_of_follows (h.mem_needs.mp ⟨hd, hp⟩)
  have hperm := takeAll_complete byText h.counted hinside
    (hacyclic.mono fun d p hdp => h.mem_needs.mp hdp)
  have hmem : ∀ id, id ∈ h.plan.activationOrder ↔ h.counts.1.has id = true := fun id => by
    rw [InsertionMap.has_iff]
    exact hperm.mem_iff
  refine ⟨hperm.nodup_iff.mpr h.counts.1.nodup, fun id => ?_, fun before d after heq p hfollows => ?_⟩
  · rw [hmem, h.has_counts, h.waiting_has_false]
  · obtain ⟨final, htaken, -, -, hordered⟩ := takeAll_spec h.counted byText
    exact hordered before d after (htaken.symm.trans heq) p (h.mem_needs.mpr hfollows).2

/-! ## Waiting entries -/

/-- What the loop finds missing when the marked candidates wait. -/
theorem missing_eq_some {providers : InsertionMap Capability InstanceId} {waits : InstanceId → Bool}
    {entry : List Capability} (h : missing hostCapabilities providers waits c = some entry) :
    entry ≠ [] ∧ ∀ capability, capability ∈ entry ↔ capability ∈ c.manifest.requires ∧
      capability ∉ hostCapabilities ∧ ∀ p, providers.get? capability = some p → waits p = true := by
  unfold missing at h
  dsimp only at h
  split at h
  case isTrue => cases h
  case isFalse hempty =>
    obtain rfl := Option.some.inj h
    refine ⟨fun hnil => hempty (by rw [hnil]; rfl), fun capability => ?_⟩
    rw [List.mem_filter]
    refine and_congr_right fun _ => ?_
    by_cases hhost : capability ∈ hostCapabilities
    · simp [hhost]
    · cases hget : providers.get? capability <;> simp [hhost]

theorem Sound.missing_eq_some (h : Sound hostCapabilities nodes) {waits : InstanceId → Bool} {entry : List Capability}
    (hmissing : missing hostCapabilities h.providers waits c = some entry) :
    entry ≠ [] ∧ ∀ capability, capability ∈ entry ↔ capability ∈ c.manifest.requires ∧
      capability ∉ hostCapabilities ∧ ∀ p, Provides nodes p capability → waits p = true := by
  obtain ⟨hne, hmem⟩ := PluginKernel.missing_eq_some hmissing
  refine ⟨hne, fun capability => (hmem capability).trans ?_⟩
  simp only [h.get?_providers]

/-- An entry that is not written too early is exact. -/
theorem Sound.entry_exact (h : Sound hostCapabilities nodes) (hcause : SingleCause hostCapabilities nodes)
    {entry : List Capability} (hentry : h.plan.waiting.get? id = some entry) :
    ∃ c ∈ nodes, c.instanceId = id ∧
      (∃ keep : Capability → Bool, entry = c.manifest.requires.filter keep) ∧
      ∀ capability, capability ∈ entry ↔ Lacks hostCapabilities nodes c capability := by
  obtain ⟨c, hc, marked, hid, hmarked, hmissing⟩ := saturate_forced hentry
  obtain ⟨hne, hmem⟩ := h.missing_eq_some hmissing
  have hwaits : ∀ p, marked p = true → Waits hostCapabilities nodes p := fun p hp =>
    h.waiting_has.mp (hmarked p hp)
  refine ⟨c, hc, hid, ?_, fun capability => ⟨fun hin => ?_, fun hlacks => ?_⟩⟩
  · unfold missing at hmissing
    dsimp only at hmissing
    split at hmissing
    case isTrue => cases hmissing
    case isFalse => exact ⟨_, (Option.some.inj hmissing).symm⟩
  · obtain ⟨hrequired, hforeign, hall⟩ := (hmem capability).mp hin
    exact ⟨hrequired, hforeign, fun p hp => hwaits p (hall p hp)⟩
  · -- something that the entry has was missing from the start, or has a provider that is marked
    obtain ⟨first, hfirst⟩ := List.exists_mem_of_ne_nil entry hne
    obtain ⟨hrequired, hforeign, hall⟩ := (hmem first).mp hfirst
    refine (hmem capability).mpr ⟨hlacks.1, hlacks.2.1, fun p hp => hall p ?_⟩
    exact hcause c hc capability first hlacks ⟨hrequired, hforeign, fun q hq => hwaits q (hall q hq)⟩ p hp

theorem Sound.correct (h : Sound hostCapabilities nodes) (hacyclic : Acyclic (Follows hostCapabilities nodes))
    (hcause : SingleCause hostCapabilities nodes) : CorrectPlan hostCapabilities nodes h.plan := by
  obtain ⟨honce, hrunning, hbefore⟩ := h.activation hacyclic
  have hruns : ∀ before d after, h.plan.activationOrder = before ++ d :: after →
      ¬Waits hostCapabilities nodes d := by
    intro before d after heq
    refine h.waiting_has_false.mp ((hrunning d).mp ?_).2
    rw [heq]
    exact List.mem_append_right _ List.mem_cons_self
  refine ⟨honce, hrunning, fun before d after heq p hdepends => ?_, fun before d after heq p hdepends hp => ?_,
    fun id => h.waiting_has, fun c hc entry hentry => ?_⟩
  · exact hbefore before d after heq p (h.follows_required (hruns before d after heq) hdepends)
  · refine hbefore before d after heq p (follows_optional (hruns before d after heq) ?_ hdepends)
    exact h.waiting_has_false.mp hp
  · obtain ⟨c', hc', hid, -, hexact⟩ := h.entry_exact hcause hentry
    obtain rfl := List.inj_on_of_nodup_map h.ids hc' hc hid
    exact hexact

/-! ## Another order of the candidates -/

theorem SingleCause.congr (h : SingleCause hostCapabilities nodes) (hsame : ∀ c, c ∈ nodes ↔ c ∈ nodes') :
    SingleCause hostCapabilities nodes' := by
  have hback : ∀ c, c ∈ nodes' ↔ c ∈ nodes := fun c => (hsame c).symm
  intro c hc a b ha hb p hp
  exact (h c ((hsame c).mpr hc) a b (ha.congr hback) (hb.congr hback) p (hp.congr hback)).congr hsame

section

variable (h : Sound hostCapabilities nodes) (h' : Sound hostCapabilities nodes')
  (hsame : ∀ c, c ∈ nodes ↔ c ∈ nodes')

include hsame

theorem Sound.providers_congr (capability : Capability) :
    h.providers.get? capability = h'.providers.get? capability := by
  apply Option.ext
  intro p
  rw [h.get?_providers, h'.get?_providers]
  exact ⟨Provides.congr hsame, Provides.congr fun c => (hsame c).symm⟩

include h h' in
theorem Sound.unavailable_congr : unavailable hostCapabilities nodes = unavailable hostCapabilities nodes' := by
  funext id
  rw [Bool.eq_iff_iff, h.unavailable_iff, h'.unavailable_iff]
  exact waits_congr hsame

theorem Sound.needs_congr : needsOf h.needs (runningOf hostCapabilities nodes) =
    needsOf h'.needs (runningOf hostCapabilities nodes') := by
  have hwaits := h.unavailable_congr h' hsame
  have hneeds : h.needs = h'.needs := by
    funext c
    unfold Sound.needs dependencyProviders
    rw [hwaits]
    simp only [h.providers_congr h' hsame]
  have hmem (c : CapabilityGraphNode) : c ∈ runningOf hostCapabilities nodes ↔
      c ∈ runningOf hostCapabilities nodes' := by
    rw [mem_runningOf, mem_runningOf, hsame, hwaits]
  funext d
  by_cases hd : ∃ c ∈ runningOf hostCapabilities nodes, c.instanceId = d
  · obtain ⟨c, hc, rfl⟩ := hd
    rw [needsOf_eq h.runningIds hc, needsOf_eq h'.runningIds ((hmem c).mp hc), hneeds]
  · have hd' : ¬∃ c ∈ runningOf hostCapabilities nodes', c.instanceId = d := by
      intro hex
      obtain ⟨c, hc, hid⟩ := hex
      exact hd ⟨c, (hmem c).mpr hc, hid⟩
    rw [needsOf_of_none hd, needsOf_of_none hd']

theorem Sound.has_counts_congr : h.counts.1.has d = h'.counts.1.has d := by
  rw [Bool.eq_iff_iff, h.has_counts, h'.has_counts, waits_congr hsame]
  simp only [hsame]

theorem Sound.activation_congr : h.plan.activationOrder = h'.plan.activationOrder := by
  have hcounted := h'.counted
  rw [← h.needs_congr h' hsame] at hcounted
  refine takeAll_congr byText_sorted text_antisymm h.counted hcounted fun d => ?_
  rw [← InsertionMap.has_iff, ← InsertionMap.has_iff, h.has_counts_congr h' hsame]

theorem Sound.dependents_congr (id : InstanceId) : h.plan.dependents.get? id = h'.plan.dependents.get? id := by
  have hcounted := h'.counted
  rw [← h.needs_congr h' hsame] at hcounted
  have hperm : (dependentsOf h.counts id).Perm (dependentsOf h'.counts id) := by
    refine (List.perm_ext_iff_of_nodup (h.counted.dependents_nodup id) (hcounted.dependents_nodup id)).mpr fun d => ?_
    rw [h.counted.mem_dependents, hcounted.mem_dependents, h.has_counts_congr h' hsame]
  have hsome : ∀ {nodes : List CapabilityGraphNode} (h : Sound hostCapabilities nodes),
      h.plan.dependents.get? id =
        if dependentsOf h.counts id = [] then none else some (byText.sort (dependentsOf h.counts id)) := by
    intro nodes h
    unfold Sound.plan dependentsOf
    rw [InsertionMap.get?_mapValues]
    cases hget : h.counts.2.get? id with
    | none => rfl
    | some values => exact (if_neg (countAll_dependents hget)).symm
  rw [hsome h, hsome h']
  by_cases hnil : dependentsOf h.counts id = []
  · have hnil' := (hnil ▸ hperm).nil_eq
    rw [if_pos hnil, if_pos hnil'.symm]
  · rw [if_neg hnil, if_neg fun hnil' => hnil (hnil' ▸ hperm).eq_nil, byText_congr hperm]

theorem Sound.waiting_congr (hcause : SingleCause hostCapabilities nodes) (id : InstanceId) :
    h.plan.waiting.get? id = h'.plan.waiting.get? id := by
  have hcause' := hcause.congr hsame
  have hwaits : Waits hostCapabilities nodes id ↔ Waits hostCapabilities nodes' id := waits_congr hsame
  cases hget : h.plan.waiting.get? id with
  | none =>
    rw [← InsertionMap.has_eq_false, h.waiting_has_false, hwaits, ← h'.waiting_has_false,
      InsertionMap.has_eq_false] at hget
    exact hget.symm
  | some entry =>
    obtain ⟨entry', hget'⟩ := Option.isSome_iff_exists.mp
      (h'.waiting_has.mpr (hwaits.mp (h.waiting_has.mp (Option.isSome_iff_exists.mpr ⟨entry, hget⟩))))
    obtain ⟨c, hc, hid, ⟨keep, rfl⟩, hexact⟩ := h.entry_exact hcause hget
    obtain ⟨c', hc', hid', ⟨keep', rfl⟩, hexact'⟩ := h'.entry_exact hcause' hget'
    obtain rfl := List.inj_on_of_nodup_map h.ids hc ((hsame c').mpr hc') (hid.trans hid'.symm)
    rw [hget']
    refine congrArg some (List.filter_congr fun capability hrequired => ?_)
    have hkeep := hexact capability
    have hkeep' := hexact' capability
    rw [List.mem_filter, and_iff_right hrequired] at hkeep hkeep'
    rw [Bool.eq_iff_iff, hkeep, hkeep']
    exact ⟨Lacks.congr hsame, Lacks.congr fun c => (hsame c).symm⟩

end

/-! ## Entries that are written too early -/

theorem exists_first {α : Type} {P : α → Prop} {l : List α} (h : ∃ a ∈ l, P a) :
    ∃ before a after, l = before ++ a :: after ∧ P a ∧ ∀ b ∈ before, ¬P b := by
  induction l with
  | nil =>
    obtain ⟨a, ha, -⟩ := h
    cases ha
  | cons x rest ih =>
    by_cases hx : P x
    · exact ⟨[], x, rest, rfl, hx, fun b hb => absurd hb List.not_mem_nil⟩
    · have hrest : ∃ a ∈ rest, P a := by
        obtain ⟨a, ha, hPa⟩ := h
        rcases List.mem_cons.mp ha with rfl | hin
        · exact absurd hPa hx
        · exact ⟨a, hin, hPa⟩
      obtain ⟨before, a, after, rfl, ha, hbefore⟩ := ih hrest
      refine ⟨x :: before, a, after, rfl, ha, fun b hb => ?_⟩
      rcases List.mem_cons.mp hb with rfl | hin
      · exact hx
      · exact hbefore b hin

theorem missing_of_exists (providers : InsertionMap Capability InstanceId) (waits : InstanceId → Bool) (hrequired :
    capability ∈ c.manifest.requires) (hforeign : capability ∉ hostCapabilities) (hall : ∀ p, providers.get? capability
    = some p → waits p = true) : ∃ entry, missing hostCapabilities providers waits c = some entry := by
  unfold missing
  dsimp only
  refine ⟨_, if_neg fun hempty => ?_⟩
  refine List.filter_eq_nil_iff.mp (List.isEmpty_iff.mp hempty) capability hrequired ?_
  cases hget : providers.get? capability with
  | none => simp [hforeign]
  | some p => simp [hforeign, hall p hget]

/-- Where a candidate lacks what different candidates provide, or what one provides and something that nobody does,
the loop can come to it when only a part of that is known. -/
theorem Sound.early_marking (h : Sound hostCapabilities nodes) (hc : c ∈ nodes) {a b : Capability}
    (ha : Lacks hostCapabilities nodes c a) (hb : Lacks hostCapabilities nodes c b) (hpa : Provides nodes p a)
    (hpb : ¬Provides nodes p b) :
    ∃ steps entry, Marking nodes CapabilityGraphNode.instanceId (missing hostCapabilities h.providers) steps ∧
      (c.instanceId ∉ steps.map fun step => step.1.instanceId) ∧
      missing hostCapabilities h.providers (fun k => decide (k ∈ steps.map fun step => step.1.instanceId)) c =
        some entry ∧
      ∃ capability, Lacks hostCapabilities nodes c capability ∧ capability ∉ entry := by
  by_cases hnobody : ∃ capability, Lacks hostCapabilities nodes c capability ∧ ∀ q, ¬Provides nodes q capability
  · -- before anything is marked
    obtain ⟨capability, hlacks, hnone⟩ := hnobody
    obtain ⟨entry, hentry⟩ := missing_of_exists h.providers (fun k => decide (k ∈ ([] : List InstanceId)))
      hlacks.1 hlacks.2.1 (fun q hq => absurd (h.get?_providers.mp hq) (hnone q))
    refine ⟨[], entry, .nil, List.not_mem_nil, hentry, a, ha, fun hin => ?_⟩
    have hmarked := (((h.missing_eq_some hentry).2 a).mp hin).2.2 p hpa
    exact absurd (of_decide_eq_true hmarked) List.not_mem_nil
  · -- right after the first candidate is marked that provides something it lacks
    have hsomebody : ∀ capability, Lacks hostCapabilities nodes c capability → ∃ q, Provides nodes q capability :=
      fun capability hlacks => by
        by_contra hnone
        exact hnobody ⟨capability, hlacks, fun q hq => hnone ⟨q, hq⟩⟩
    obtain ⟨steps, hsteps, hentries⟩ := saturate_marking nodes CapabilityGraphNode.instanceId
      (missing hostCapabilities h.providers)
    have hmarks : ∀ k, h.plan.waiting.has k = true ↔ k ∈ steps.map fun step => step.1.instanceId := fun k => by
      rw [show h.plan.waiting.has = _ from has_of_entries hentries, decide_eq_true_eq]
    have hwaits : Waits hostCapabilities nodes c.instanceId := waits_iff.mpr ⟨c, hc, rfl, a, ha⟩
    obtain ⟨⟨c', entry'⟩, hmem, hid⟩ := List.mem_map.mp ((hmarks _).mp (h.waiting_has.mpr hwaits))
    obtain ⟨before, after, rfl⟩ := List.append_of_mem hmem
    rw [List.append_cons] at hsteps
    obtain ⟨hbefore, hc', hnew, hforced⟩ := hsteps.left.last
    obtain rfl := List.inj_on_of_nodup_map h.ids hc' hc hid
    have hbeforeWaits : ∀ k, (k ∈ before.map fun step => step.1.instanceId) → Waits hostCapabilities nodes k := by
      intro k hk
      refine h.waiting_has.mp ((hmarks k).mpr ?_)
      rw [List.map_append]
      exact List.mem_append_left _ hk
    obtain ⟨hne, hin⟩ := h.missing_eq_some hforced
    obtain ⟨first, hfirst⟩ := List.exists_mem_of_ne_nil entry' hne
    obtain ⟨hrequired, hforeign, hmarkedFirst⟩ := (hin first).mp hfirst
    have hlacksFirst : Lacks hostCapabilities nodes c' first :=
      ⟨hrequired, hforeign, fun q hq => hbeforeWaits q (of_decide_eq_true (hmarkedFirst q hq))⟩
    obtain ⟨q, hq⟩ := hsomebody first hlacksFirst
    obtain ⟨qStep, hqMem, hqId⟩ := List.mem_map.mp (of_decide_eq_true (hmarkedFirst q hq))
    obtain ⟨early, x, late, rfl, ⟨z, hz, hxz⟩, hearly⟩ := exists_first
      (P := fun step : CapabilityGraphNode × List Capability =>
        ∃ z, Lacks hostCapabilities nodes c' z ∧ Provides nodes step.1.instanceId z)
      ⟨qStep, hqMem, first, hlacksFirst, hqId ▸ hq⟩
    rw [List.append_cons] at hbefore hnew
    have hnewEarly : c'.instanceId ∉ (early ++ [x]).map fun step => step.1.instanceId := fun hk => hnew (by
      rw [List.map_append]
      exact List.mem_append_left _ hk)
    -- of the providers of what `c'` lacks only `x` is marked
    have honly : ∀ capability, Lacks hostCapabilities nodes c' capability → ∀ r, Provides nodes r capability →
        r ∈ (early ++ [x]).map (fun step => step.1.instanceId) → r = x.1.instanceId := by
      intro capability hlacks r hr hk
      rw [List.map_append] at hk
      rcases List.mem_append.mp hk with hk | hk
      · obtain ⟨step, hstep, rfl⟩ := List.mem_map.mp hk
        exact absurd ⟨capability, hlacks, hr⟩ (hearly step hstep)
      · exact List.mem_singleton.mp hk
    obtain ⟨entry, hentry⟩ := missing_of_exists h.providers
      (fun k => decide (k ∈ (early ++ [x]).map fun step => step.1.instanceId)) hz.1 hz.2.1 (by
        intro r hr
        have hsame := (h.get?_providers.mpr hxz).symm.trans hr
        rw [decide_eq_true_eq, ← Option.some.inj hsame, List.map_append]
        exact List.mem_append_right _ List.mem_cons_self)
    refine ⟨early ++ [x], entry, hbefore.left, hnewEarly, hentry, ?_⟩
    -- `a` and `b` do not both come from `x`
    have hout : ∀ capability, Lacks hostCapabilities nodes c' capability →
        ¬Provides nodes x.1.instanceId capability → capability ∉ entry := by
      intro capability hlacks hother hin
      obtain ⟨r, hr⟩ := hsomebody capability hlacks
      have hmarked := (((h.missing_eq_some hentry).2 capability).mp hin).2.2 r hr
      exact hother (honly capability hlacks r hr (of_decide_eq_true hmarked) ▸ hr)
    by_cases hxa : Provides nodes x.1.instanceId a
    · have hxp : x.1.instanceId = p := Option.some.inj ((h.provider.mpr hxa).symm.trans (h.provider.mpr hpa))
      exact ⟨b, hb, hout b hb (hxp ▸ hpb)⟩
    · exact ⟨a, ha, hout a ha hxa⟩

theorem Sound.missing_congr (h : Sound hostCapabilities nodes) (h' : Sound hostCapabilities nodes') (hsame : ∀ c, c ∈
    nodes ↔ c ∈ nodes') : missing hostCapabilities h.providers = missing hostCapabilities h'.providers := by
  funext waits c
  unfold missing
  simp only [h.providers_congr h' hsame]

/-- An order of the candidates in which an entry lacks something. -/
theorem Sound.early_entry (h : Sound hostCapabilities nodes) (hcause : ¬SingleCause hostCapabilities nodes) :
    ∃ nodes', nodes.Perm nodes' ∧ ∀ h' : Sound hostCapabilities nodes', ∃ c ∈ nodes, ∃ entry,
      h'.plan.waiting.get? c.instanceId = some entry ∧
        ∃ capability, Lacks hostCapabilities nodes c capability ∧ capability ∉ entry := by
  unfold SingleCause at hcause
  push Not at hcause
  obtain ⟨c, hc, a, b, ha, hb, p, hpa, hpb⟩ := hcause
  obtain ⟨steps, entry, hsteps, hnew, hentry, hout⟩ := h.early_marking hc ha hb hpa hpb
  obtain ⟨hmembers, hdistinct⟩ := hsteps.members
  have hnodup : (steps.map Prod.fst ++ [c]).Nodup := by
    apply List.Nodup.of_map CapabilityGraphNode.instanceId
    rw [List.map_append, List.map_map]
    refine List.nodup_append.mpr ⟨hdistinct, List.nodup_singleton _, fun k hk j hj => ?_⟩
    rintro rfl
    exact hnew (List.mem_singleton.mp hj ▸ hk)
  have hsubset : steps.map Prod.fst ++ [c] ⊆ nodes := by
    intro x hx
    rcases List.mem_append.mp hx with hin | hlast
    · obtain ⟨step, hstep, rfl⟩ := List.mem_map.mp hin
      exact hmembers step hstep
    · rw [List.mem_singleton.mp hlast]
      exact hc
  obtain ⟨front, hfront, hsublist⟩ := List.subperm_of_subset hnodup hsubset
  obtain ⟨rest, hrest⟩ := hsublist.exists_perm_append
  have hperm : nodes.Perm (steps.map Prod.fst ++ c :: rest) := by
    rw [List.append_cons]
    exact hrest.trans (hfront.append_right rest)
  refine ⟨_, hperm, fun h' => ⟨c, hc, entry, ?_, hout⟩⟩
  show (saturate _ CapabilityGraphNode.instanceId (missing hostCapabilities h'.providers)).get? _ = _
  rw [← h.missing_congr h' fun x => hperm.mem_iff]
  exact hsteps.next hnew hentry rest

/-! ## When the plan is that of the graph -/

theorem plansGraph_of_refused (h : Refused hostCapabilities nodes) : PlansGraph hostCapabilities nodes := by
  obtain ⟨error, herror⟩ := h.error
  refine ⟨iff_of_true ⟨error, herror⟩ h, fun plan hplan => ?_, fun plan hplan => ?_⟩
  · cases herror.symm.trans hplan
  · cases herror.symm.trans hplan

theorem plansGraph_of_singleCause (hids : (nodes.map CapabilityGraphNode.instanceId).Nodup)
    (hnodup : ∀ c ∈ nodes, c.manifest.provides.Nodup) (hcause : SingleCause hostCapabilities nodes)
    (hplanned : ¬Refused hostCapabilities nodes) : PlansGraph hostCapabilities nodes := by
  obtain ⟨h, hacyclic, hplan⟩ := planned_of_not_refused hids hnodup hplanned
  refine ⟨?_, ?_, ?_⟩
  · refine iff_of_false ?_ hplanned
    rintro ⟨error, herror⟩
    cases herror.symm.trans hplan
  · intro plan hok
    obtain rfl := Except.ok.inj (hok.symm.trans hplan)
    exact h.correct hacyclic hcause
  · intro plan hok nodes' hperm
    obtain rfl := Except.ok.inj (hok.symm.trans hplan)
    have hsame : ∀ c, c ∈ nodes ↔ c ∈ nodes' := fun c => hperm.mem_iff
    have h' := h.perm hperm
    have hacyclic' := hacyclic.mono fun d p hdp => Follows.congr (fun c => (hsame c).symm) hdp
    exact ⟨h'.plan, h'.planned_iff.1 hacyclic', h.activation_congr h' hsame, h.waiting_congr h' hsame hcause,
      h.providers_congr h' hsame, h.dependents_congr h' hsame⟩

theorem plansGraph_cases (hids : (nodes.map CapabilityGraphNode.instanceId).Nodup)
    (h : PlansGraph hostCapabilities nodes) (hplanned : ¬Refused hostCapabilities nodes) :
    (∀ c ∈ nodes, c.manifest.provides.Nodup) ∧ SingleCause hostCapabilities nodes := by
  cases hplan : planCapabilityGraph nodes hostCapabilities with
  | error error => exact absurd (h.throws.mp ⟨error, hplan⟩) hplanned
  | ok plan =>
    have hsound := single_of_plan hplan
    refine ⟨((sound_iff hids).mp hsound).1, ?_⟩
    by_contra hcause
    obtain ⟨nodes', hperm, hearly⟩ := hsound.early_entry hcause
    have hsound' := hsound.perm hperm
    obtain ⟨c, hc, entry, hentry, capability, hlacks, hout⟩ := hearly hsound'
    obtain ⟨plan', hplan', hsame⟩ := h.orderFree plan hplan nodes' hperm
    have hacyclic : Acyclic (Follows hostCapabilities nodes) := by
      by_contra hcycle
      exact hplanned (.inr (.inr hcycle))
    have hacyclic' := hacyclic.mono fun d p hdp => Follows.congr (fun c => hperm.symm.mem_iff) hdp
    obtain rfl := Except.ok.inj ((hsound'.planned_iff.1 hacyclic').symm.trans hplan')
    rw [← hsame.waiting] at hentry
    exact hout (((h.correct plan hplan).entries c hc entry hentry capability).mpr hlacks)

/-- **When the plan is that of the graph, whatever the order of the candidates.**  The graph is refused, or no
candidate lists a capability twice and all that a waiting candidate lacks has one provider, or none. -/
theorem planCapabilityGraph_plansGraph_iff (hids : (nodes.map CapabilityGraphNode.instanceId).Nodup) :
    PlansGraph hostCapabilities nodes ↔ Refused hostCapabilities nodes ∨
      ((∀ c ∈ nodes, c.manifest.provides.Nodup) ∧ SingleCause hostCapabilities nodes) := by
  constructor
  · intro h
    by_cases hrefused : Refused hostCapabilities nodes
    · exact .inl hrefused
    · exact .inr (plansGraph_cases hids h hrefused)
  · intro h
    by_cases hrefused : Refused hostCapabilities nodes
    · exact plansGraph_of_refused hrefused
    · obtain ⟨hnodup, hcause⟩ := h.resolve_left hrefused
      exact plansGraph_of_singleCause hids hnodup hcause hrefused

/-- A consumer of a capability that nobody provides and of one whose provider waits. -/
def waitingConsumer : CapabilityGraphNode where
  instanceId := ⟨js "consumer", by decide, by decide⟩
  manifest := { provides := [], requires := [js "x", js "y"], optional := [] }

def waitingProvider : CapabilityGraphNode where
  instanceId := ⟨js "provider", by decide, by decide⟩
  manifest := { provides := [js "y"], requires := [js "z"], optional := [] }

theorem provides_pair : Provides [waitingConsumer, waitingProvider] p capability ↔
    p = waitingProvider.instanceId ∧ capability = js "y" := by
  unfold Provides
  simp [waitingConsumer, waitingProvider, eq_comm]

theorem provider_waits : Waits [] [waitingConsumer, waitingProvider] waitingProvider.instanceId := by
  refine .intro waitingProvider (by simp) (js "z") (by simp [waitingProvider]) List.not_mem_nil fun p hp => ?_
  exact absurd (provides_pair.mp hp).2 (by decide)

theorem consumer_lacks : Lacks [] [waitingConsumer, waitingProvider] waitingConsumer (js "x") ∧
    Lacks [] [waitingConsumer, waitingProvider] waitingConsumer (js "y") := by
  refine ⟨⟨by simp [waitingConsumer], List.not_mem_nil, fun p hp => ?_⟩,
    by simp [waitingConsumer], List.not_mem_nil, fun p hp => ?_⟩
  · exact absurd (provides_pair.mp hp).2 (by decide)
  · rw [(provides_pair.mp hp).1]
    exact provider_waits

/-- The consumer comes first: its entry says that it waits for `x`, and not that it waits for `y`. -/
theorem entry_incomplete : ¬PlansGraph [] [waitingConsumer, waitingProvider] := by
  intro h
  have hplanned : ¬Refused [] [waitingConsumer, waitingProvider] := by
    rintro (⟨c, -, capability, -, hhost⟩ | ⟨c, hc, c', hc', hne, capability, hprovides, hprovides'⟩ | hcycle)
    · exact List.not_mem_nil hhost
    · have hone := provides_pair.mp ⟨c, hc, rfl, hprovides⟩
      have htwo := provides_pair.mp ⟨c', hc', rfl, hprovides'⟩
      exact hne (hone.1.trans htwo.1.symm)
    · -- both candidates wait
      refine hcycle fun d hpath ↦ ?_
      obtain ⟨p, ⟨hruns, -, -, c, hc, rfl, -⟩, -⟩ := Relation.TransGen.head'_iff.mp hpath
      rcases List.mem_cons.mp hc with rfl | hc
      · exact hruns (waits_iff.mpr ⟨waitingConsumer, hc, rfl, js "x", consumer_lacks.1⟩)
      · exact hruns (List.mem_singleton.mp hc ▸ provider_waits)
  obtain ⟨-, hcause⟩ := plansGraph_cases (by decide) h hplanned
  have hprovides := hcause waitingConsumer (by simp) (js "y") (js "x") consumer_lacks.2 consumer_lacks.1
    waitingProvider.instanceId (provides_pair.mpr ⟨rfl, rfl⟩)
  exact absurd (provides_pair.mp hprovides).2 (by decide)

theorem planCapabilityGraph_plansGraph_iff_pair :
    PlansGraph [] [waitingProvider] ↔ Refused [] [waitingProvider] ∨
      ((∀ c ∈ [waitingProvider], c.manifest.provides.Nodup) ∧ SingleCause [] [waitingProvider]) :=
  planCapabilityGraph_plansGraph_iff (by decide)

end RabiRoute.PluginKernel
