import RabiRoute.PluginKernel.Planning

/-!
# The rounds of the isolation

What a round finds invalid, what it makes of the graph, and why the rounds come to an end.
-/

namespace RabiRoute.PluginKernel

open Collections Graphs

variable {α : Type} [GraphCandidate α] {resourceConflicts : ResourceConflicts α}
  {hostCapabilities : List Capability} {previous effective : Candidates α} {id : InstanceId}

namespace Candidates

def nodes (candidates : Candidates α) : List CapabilityGraphNode := candidates.map.values.map node

theorem mem_nodes {candidates : Candidates α} {n : CapabilityGraphNode} :
    n ∈ candidates.nodes ↔ ∃ c, candidates.map.get? n.instanceId = some c ∧ node c = n := by
  unfold nodes
  rw [List.mem_map]
  constructor
  · rintro ⟨c, hc, rfl⟩
    obtain ⟨id, hid⟩ := InsertionMap.mem_values.mp hc
    refine ⟨c, ?_, rfl⟩
    rw [show (node c).instanceId = id from candidates.keyed id c hid]
    exact hid
  · rintro ⟨c, hc, rfl⟩
    exact ⟨c, InsertionMap.mem_values.mpr ⟨_, hc⟩, rfl⟩

theorem ids_nodes (candidates : Candidates α) :
    candidates.nodes.map CapabilityGraphNode.instanceId = candidates.map.keys := by
  unfold nodes InsertionMap.values InsertionMap.keys
  rw [List.map_map, List.map_map]
  refine List.map_congr_left fun e he => ?_
  exact candidates.keyed e.1 e.2 (InsertionMap.get?_eq_some.mpr he)

theorem nodup_values (candidates : Candidates α) : (candidates.map.values.map idOf).Nodup := by
  have hkeys : candidates.map.values.map idOf = candidates.map.keys := by
    rw [← candidates.ids_nodes]
    unfold nodes
    rw [List.map_map]
    rfl
  rw [hkeys]
  exact candidates.map.nodup

theorem get?_put {candidates : Candidates α} {c : α} :
    (candidates.put c).map.get? id = if id = idOf c then some c else candidates.map.get? id :=
  InsertionMap.get?_set

theorem get?_drop {candidates : Candidates α} {id' : InstanceId} :
    (candidates.drop id').map.get? id = if id = id' then none else candidates.map.get? id :=
  InsertionMap.get?_erase

theorem get?_drops {ids : List InstanceId} {candidates : Candidates α} :
    (ids.foldl drop candidates).map.get? id = if id ∈ ids then none else candidates.map.get? id := by
  induction ids generalizing candidates with
  | nil => rfl
  | cons id' rest ih =>
    rw [List.foldl_cons, ih, get?_drop]
    by_cases hid : id = id'
    · simp [hid]
    · simp [hid]

end Candidates

/-! ## What is invalid -/

/-- An instance provides a capability of the host, or one that it is not the confirmed provider of among
several. -/
def Conflicting (hostCapabilities : List Capability) (previous : Candidates α) (nodes : List CapabilityGraphNode)
    (id : InstanceId) : Prop :=
  ∃ capability, id ∈ suppliers nodes capability ∧ (capability ∈ hostCapabilities ∨
    (1 < (suppliers nodes capability).length ∧ some id ≠ (confirmedProviders previous).get? capability))

theorem has_foldl_set {ι : Type} {error : ι → JsString} {invalid : Errors} (ids : List ι)
    (key : ι → InstanceId) (skip : ι → Prop) [DecidablePred skip] :
    (ids.foldl (fun invalid x => if skip x then invalid else invalid.set (key x) (error x)) invalid).has id = true ↔
      invalid.has id = true ∨ ∃ x ∈ ids, key x = id ∧ ¬skip x := by
  induction ids generalizing invalid with
  | nil => simp
  | cons x rest ih =>
    rw [List.foldl_cons, ih]
    by_cases hskip : skip x
    · simp [hskip]
    · simp only [hskip, if_false, InsertionMap.has_set, Bool.or_eq_true, decide_eq_true_eq, List.mem_cons,
        exists_eq_or_imp, not_false_eq_true, and_true]
      rw [eq_comm (a := id), or_comm (a := key x = id), or_assoc]

theorem has_foldl_set_all {error : InstanceId → JsString} {invalid : Errors} {ids : List InstanceId} :
    (ids.foldl (fun invalid id => invalid.set id (error id)) invalid).has id = true ↔
      invalid.has id = true ∨ id ∈ ids := by
  have hset : (ids.foldl (fun invalid id => if False then invalid else invalid.set id (error id)) invalid).has id =
      true ↔ _ := has_foldl_set ids (fun id => id) fun _ => False
  simpa using hset

theorem has_conflictsOfCapability {confirmed : InsertionMap Capability InstanceId} {invalid : Errors}
    {entry : Capability × List InstanceId} :
    (conflictsOfCapability hostCapabilities confirmed invalid entry).has id = true ↔
      invalid.has id = true ∨ (id ∈ entry.2 ∧ (entry.1 ∈ hostCapabilities ∨
        (1 < entry.2.length ∧ some id ≠ confirmed.get? entry.1))) := by
  unfold conflictsOfCapability
  split
  case isTrue hhost =>
    rw [has_foldl_set_all]
    simp [hhost]
  case isFalse hhost =>
    split
    case isTrue hmany =>
      rw [has_foldl_set _ (fun id => id) fun id => some id = confirmed.get? entry.1]
      simp [hhost, hmany]
    case isFalse hfew => simp [hhost, hfew]

theorem has_conflicts {invalid : Errors} {nodes : List CapabilityGraphNode} :
    ((suppliersOf nodes).entries.foldl (conflictsOfCapability hostCapabilities (confirmedProviders previous))
      invalid).has id = true ↔ invalid.has id = true ∨ Conflicting hostCapabilities previous nodes id := by
  have hfold : ∀ (l : List (Capability × List InstanceId)) (invalid : Errors),
      (l.foldl (conflictsOfCapability hostCapabilities (confirmedProviders previous)) invalid).has id = true ↔
        invalid.has id = true ∨ ∃ entry ∈ l, id ∈ entry.2 ∧ (entry.1 ∈ hostCapabilities ∨
          (1 < entry.2.length ∧ some id ≠ (confirmedProviders previous).get? entry.1)) := by
    intro l
    induction l with
    | nil => simp
    | cons entry rest ih =>
      intro invalid
      rw [List.foldl_cons, ih, has_conflictsOfCapability, or_assoc]
      simp only [List.mem_cons, exists_eq_or_imp]
  have hsuppliers (capability : Capability) : ((provisions nodes).filter fun p =>
      decide (some p.1 = some capability)).map Prod.snd = suppliers nodes capability := by
    simp only [Option.some.injEq]
    rfl
  rw [hfold]
  refine or_congr_right ⟨?_, ?_⟩
  · rintro ⟨⟨capability, ids⟩, hmem, hid, hconflict⟩
    obtain rfl := (InsertionMap.mem_groupBy hmem).trans (hsuppliers capability)
    exact ⟨capability, hid, hconflict⟩
  · rintro ⟨capability, hid, hconflict⟩
    have hentry := InsertionMap.exists_group ((hsuppliers capability).symm ▸ hid)
    exact ⟨_, hentry, (hsuppliers capability).symm ▸ ⟨hid, hconflict⟩⟩

theorem isEmpty_iff {κ δ : Type} [DecidableEq κ] {m : InsertionMap κ δ} :
    m.entries.isEmpty = true ↔ ∀ k, m.has k = false := by
  rw [List.isEmpty_iff]
  constructor
  · intro h k
    rw [InsertionMap.has_eq_false, InsertionMap.get?_eq_none, h]
    exact fun _ => List.not_mem_nil
  · intro h
    refine List.eq_nil_iff_forall_not_mem.mpr fun e he => ?_
    exact InsertionMap.get?_eq_none.mp (InsertionMap.has_eq_false.mp (h e.1)) e.2 he

/-- What a round finds invalid: a conflict, or where there is none a member of a required cycle. -/
theorem has_invalidMembers :
    (invalidMembers resourceConflicts hostCapabilities previous effective).has id = true ↔
      ((resourceConflicts effective previous).has id = true ∨
        Conflicting hostCapabilities previous effective.nodes id) ∨
      ((∀ other, (resourceConflicts effective previous).has other = false ∧
          ¬Conflicting hostCapabilities previous effective.nodes other) ∧
        id ∈ requiredCycles effective (suppliersOf effective.nodes) hostCapabilities) := by
  generalize hconflicts : (suppliersOf effective.nodes).entries.foldl (conflictsOfCapability hostCapabilities
    (confirmedProviders previous)) (resourceConflicts effective previous) = conflicts
  have hinvalid : invalidMembers resourceConflicts hostCapabilities previous effective =
      if conflicts.entries.isEmpty then (requiredCycles effective (suppliersOf effective.nodes) hostCapabilities).foldl
        (fun invalid id => invalid.set id (requiredCycle id)) conflicts
      else conflicts := by
    rw [← hconflicts]
    rfl
  have hhas (id : InstanceId) : conflicts.has id = true ↔ (resourceConflicts effective previous).has id = true ∨
      Conflicting hostCapabilities previous effective.nodes id := by
    rw [← hconflicts, has_conflicts]
  have hnone : conflicts.entries.isEmpty = true ↔ ∀ other, (resourceConflicts effective previous).has other = false ∧
      ¬Conflicting hostCapabilities previous effective.nodes other := by
    rw [isEmpty_iff]
    refine forall_congr' fun other => ?_
    rw [← Bool.not_eq_true, hhas, not_or, Bool.not_eq_true]
  rw [hinvalid, ← hhas]
  split
  case isTrue hempty =>
    rw [has_foldl_set_all]
    exact or_congr_right (by simp [hnone.mp hempty])
  case isFalse hsome => exact ⟨.inl, fun h => h.resolve_right fun h' => hsome (hnone.mpr h'.1)⟩

/-- The conflicts of a resource are about members of the graph. -/
def AboutMembers (resourceConflicts : ResourceConflicts α) : Prop :=
  ∀ effective previous id, (resourceConflicts effective previous).has id = true → effective.map.has id = true

theorem key_of_provision {capability : Capability} (h : (capability, id) ∈ provisions effective.nodes) :
    effective.map.has id = true := by
  obtain ⟨n, hn, rfl, -⟩ := mem_provisions.mp h
  obtain ⟨c, hc, -⟩ := Candidates.mem_nodes.mp hn
  exact Option.isSome_iff_exists.mpr ⟨c, hc⟩

theorem follows_of_cycle {supplied : InsertionMap Capability (List InstanceId)}
    (h : id ∈ requiredCycles effective supplied hostCapabilities) : effective.map.has id = true := by
  obtain ⟨b, hstep, -⟩ := Relation.TransGen.head'_iff.mp (mem_findCycles h)
  exact InsertionMap.has_iff.mpr hstep.1

theorem invalid_key (hresources : AboutMembers resourceConflicts) (h : (invalidMembers resourceConflicts
    hostCapabilities previous effective).has id = true) : effective.map.has id = true := by
  rcases has_invalidMembers.mp h with (hresource | ⟨capability, hid, -⟩) | ⟨-, hcycle⟩
  · exact hresources effective previous id hresource
  · exact key_of_provision (mem_suppliers.mp hid)
  · exact follows_of_cycle hcycle

/-! ## What a round does -/

variable [DecidableEq α]

variable (previous) in
theorem repairMember_spec {s : IsolationState α × Bool} {entry : InstanceId × JsString} {c : α}
    (hc : s.1.effective.map.get? entry.1 = some c) :
    (∀ id, (repairMember previous s entry).1.effective.map.get? id =
      if id = entry.1 then previous.map.get? id else s.1.effective.map.get? id) ∧
    ((repairMember previous s entry).2 = true ↔ s.2 = true ∨ previous.map.get? entry.1 ≠ some c) ∧
    (repairMember previous s entry).1.diagnostics =
      noteFirst s.1.diagnostics entry.1 { candidate := c, error := entry.2, rejected := true } := by
  unfold repairMember
  rw [hc]
  dsimp only
  cases hprevious : previous.map.get? entry.1 with
  | none =>
    refine ⟨fun id => ?_, by simp, rfl⟩
    rw [Candidates.get?_drop]
    split
    case isTrue hid => rw [hid, hprevious]
    case isFalse => rfl
  | some retained =>
    dsimp only
    split
    case isTrue hne =>
      have hdiffers : some retained ≠ some c := fun h => hne (Option.some.inj h).symm
      refine ⟨fun id => ?_, iff_of_true rfl (.inr hdiffers), rfl⟩
      rw [Candidates.get?_put, previous.keyed entry.1 retained hprevious]
      split
      case isTrue hid => rw [hid, hprevious]
      case isFalse => rfl
    case isFalse hsame =>
      obtain rfl : c = retained := by simpa using hsame
      refine ⟨fun id => ?_, by simp, rfl⟩
      split
      case isTrue hid => rw [hid, hprevious, hc]
      case isFalse => rfl

omit [GraphCandidate α] [DecidableEq α] in
theorem get?_noteFirst {diagnostics : InsertionMap InstanceId (PluginGraphDiagnostic α)} {id' : InstanceId}
    {diagnostic d : PluginGraphDiagnostic α} (h : (noteFirst diagnostics id' diagnostic).get? id = some d) :
    diagnostics.get? id = some d ∨ (id = id' ∧ d = diagnostic) := by
  unfold noteFirst at h
  split at h
  case isTrue => exact .inl h
  case isFalse =>
    rw [InsertionMap.get?_set] at h
    split at h
    case isTrue hid => exact .inr ⟨hid, (Option.some.inj h).symm⟩
    case isFalse => exact .inl h

variable (previous) in
theorem repairMembers_spec {entries : List (InstanceId × JsString)} {s : IsolationState α × Bool}
    (hentries : (entries.map Prod.fst).Nodup) (hkeys : ∀ id ∈ entries.map Prod.fst, s.1.effective.map.has id = true) :
    (∀ id, (entries.foldl (repairMember previous) s).1.effective.map.get? id =
      if id ∈ entries.map Prod.fst then previous.map.get? id else s.1.effective.map.get? id) ∧
    ((entries.foldl (repairMember previous) s).2 = true ↔ s.2 = true ∨
      ∃ id ∈ entries.map Prod.fst, previous.map.get? id ≠ s.1.effective.map.get? id) ∧
    (∀ id d, (entries.foldl (repairMember previous) s).1.diagnostics.get? id = some d →
      s.1.diagnostics.get? id = some d ∨
        (id ∈ entries.map Prod.fst ∧ s.1.effective.map.get? id = some d.candidate)) := by
  induction entries generalizing s with
  | nil => simp
  | cons entry rest ih =>
    rw [List.map_cons, List.nodup_cons] at hentries
    rw [List.map_cons, List.forall_mem_cons] at hkeys
    obtain ⟨c, hc⟩ := Option.isSome_iff_exists.mp hkeys.1
    obtain ⟨hget, hflag, hnotes⟩ := repairMember_spec previous hc
    have hother (id : InstanceId) (hid : id ∈ rest.map Prod.fst) :
        (repairMember previous s entry).1.effective.map.get? id = s.1.effective.map.get? id := by
      have hne : id ≠ entry.1 := by
        rintro rfl
        exact hentries.1 hid
      rw [hget, if_neg hne]
    obtain ⟨hgetRest, hflagRest, hnotesRest⟩ := ih (s := repairMember previous s entry) hentries.2
      fun id hid => by
        unfold InsertionMap.has
        rw [hother id hid]
        exact hkeys.2 id hid
    rw [List.foldl_cons, List.map_cons]
    refine ⟨fun id => ?_, ?_, fun id d hd => ?_⟩
    · rw [hgetRest, hget]
      by_cases hid : id = entry.1
      · simp [hid]
      · simp only [hid, if_false, List.mem_cons, false_or]
    · rw [hflagRest, hflag, or_assoc]
      refine or_congr_right ?_
      simp only [List.mem_cons, exists_eq_or_imp, hc]
      refine or_congr_right (exists_congr fun id => and_congr_right fun hid => ?_)
      rw [hother id hid]
    · rw [List.mem_cons]
      rcases hnotesRest id d hd with hold | ⟨hid, hcandidate⟩
      · rw [hnotes] at hold
        rcases get?_noteFirst hold with hold | ⟨rfl, rfl⟩
        · exact .inl hold
        · exact .inr ⟨.inl rfl, hc⟩
      · exact .inr ⟨.inr hid, hother id hid ▸ hcandidate⟩

/-- What one round makes of the graph: the invalid members give way to their previous candidates, and are
deleted where all of them are their previous candidates already. -/
structure RoundEffect (previous : Candidates α) (invalid : Errors) (restores : Bool)
    (s s' : IsolationState α) : Prop where
  found : ∃ id, invalid.has id = true
  key : ∀ id, invalid.has id = true → s.effective.map.has id = true
  replaced : ∀ id, invalid.has id = true →
    s'.effective.map.get? id = if restores then previous.map.get? id else none
  kept : ∀ id, invalid.has id = false → s'.effective.map.get? id = s.effective.map.get? id
  restores_iff : restores = true ↔ ∃ id, invalid.has id = true ∧ previous.map.get? id ≠ s.effective.map.get? id
  noted : ∀ id d, s'.diagnostics.get? id = some d → s.diagnostics.get? id = some d ∨
    (invalid.has id = true ∧ s.effective.map.get? id = some d.candidate)

theorem isolationRound_effect {s s' : IsolationState α} (hresources : AboutMembers resourceConflicts)
    (h : isolationRound resourceConflicts hostCapabilities previous s = some s') :
    ∃ restores, RoundEffect previous (invalidMembers resourceConflicts hostCapabilities previous s.effective)
      restores s s' := by
  unfold isolationRound at h
  dsimp only at h
  have hkeys (id : InstanceId)
      (hid : (invalidMembers resourceConflicts hostCapabilities previous s.effective).has id = true) :
      s.effective.map.has id = true := invalid_key hresources hid
  generalize invalidMembers resourceConflicts hostCapabilities previous s.effective = invalid at h hkeys
  have hmem (id : InstanceId) : id ∈ invalid.entries.map Prod.fst ↔ invalid.has id = true := InsertionMap.has_iff.symm
  have hnot (id : InstanceId) (hid : invalid.has id = false) : id ∉ invalid.entries.map Prod.fst := by
    rw [hmem, hid]
    decide
  obtain ⟨hget, hflag, hnotes⟩ := repairMembers_spec previous (s := (s, false)) invalid.nodup
    fun id hid => hkeys id ((hmem id).mp hid)
  simp only [hmem, Bool.false_eq_true, false_or] at hflag hnotes
  split at h
  case isTrue => cases h
  case isFalse hsome =>
    have hfound : ∃ id, invalid.has id = true := by
      by_contra hnone
      exact hsome (isEmpty_iff.mpr (by simpa using hnone))
    refine ⟨(invalid.entries.foldl (repairMember previous) (s, false)).2, hfound, hkeys, ?_, ?_, hflag, ?_⟩
    · intro id hid
      split at h
      case isTrue hrestores =>
        obtain rfl := Option.some.inj h
        rw [hget, if_pos ((hmem id).mpr hid), hrestores, if_pos rfl]
      case isFalse hrestores =>
        obtain rfl := Option.some.inj h
        rw [if_neg hrestores]
        exact Candidates.get?_drops.trans (if_pos ((hmem id).mpr hid))
    · intro id hid
      split at h
      case isTrue =>
        obtain rfl := Option.some.inj h
        rw [hget, if_neg (hnot id hid)]
      case isFalse =>
        obtain rfl := Option.some.inj h
        refine (Candidates.get?_drops.trans (if_neg (hnot id hid))).trans ?_
        rw [hget, if_neg (hnot id hid)]
    · intro id d hd
      refine hnotes id d ?_
      split at h
      · obtain rfl := Option.some.inj h
        exact hd
      · obtain rfl := Option.some.inj h
        exact hd

omit [DecidableEq α] in
theorem RoundEffect.present {s s' : IsolationState α} {invalid : Errors} {restores : Bool} (h : RoundEffect previous
    invalid restores s s') (hid : invalid.has id = true) : s.effective.map.get? id ≠ none := by
  intro hnone
  have hkey := h.key id hid
  rw [InsertionMap.has, hnone] at hkey
  cases hkey

omit [DecidableEq α] in
/-- A round adds no member. -/
theorem RoundEffect.no_newcomer {s s' : IsolationState α} {invalid : Errors} {restores : Bool} (h : RoundEffect previous
    invalid restores s s') (hid : s'.effective.map.has id = true) : s.effective.map.has id = true := by
  cases hinvalid : invalid.has id with
  | true => exact h.key id hinvalid
  | false =>
    unfold InsertionMap.has at hid ⊢
    rwa [h.kept id hinvalid] at hid

/-! ## The rounds end -/

/-- How many rounds may still change a member. -/
def roundsLeft (previous : Candidates α) (effective : Candidates α) (id : InstanceId) : Nat :=
  if effective.map.get? id = none then 0
  else if effective.map.get? id = previous.map.get? id then 1
  else 2

theorem roundsLeft_le {s s' : IsolationState α} {invalid : Errors} {restores : Bool} (h : RoundEffect previous invalid
    restores s s') (id : InstanceId) : roundsLeft previous s'.effective id ≤ roundsLeft previous s.effective id := by
  unfold roundsLeft
  by_cases hid : invalid.has id = true
  · rw [h.replaced id hid, if_neg (h.present hid)]
    cases restores with
    | true =>
      rw [if_pos rfl, if_pos rfl]
      split <;> split <;> omega
    | false => simp
  · rw [h.kept id (by simpa using hid)]

theorem roundsLeft_lt {s s' : IsolationState α} {invalid : Errors} {restores : Bool}
    (h : RoundEffect previous invalid restores s s') :
    ∃ id, s.effective.map.has id = true ∧
      roundsLeft previous s'.effective id < roundsLeft previous s.effective id := by
  cases hrestores : restores with
  | true =>
    obtain ⟨id, hid, hne⟩ := h.restores_iff.mp hrestores
    refine ⟨id, h.key id hid, ?_⟩
    unfold roundsLeft
    rw [h.replaced id hid, hrestores, if_pos rfl, if_neg (h.present hid), if_neg (Ne.symm hne), if_pos rfl]
    split <;> omega
  | false =>
    obtain ⟨id, hid⟩ := h.found
    refine ⟨id, h.key id hid, ?_⟩
    unfold roundsLeft
    rw [h.replaced id hid, hrestores, if_neg (h.present hid)]
    simp only [Bool.false_eq_true, if_false, if_true]
    split <;> omega

/-- The rounds come to an end, and what each round keeps holds there. -/
theorem rounds_end {P : IsolationState α → Prop} {s : IsolationState α} (hresources : AboutMembers resourceConflicts)
    (hkeep : ∀ s s', P s → isolationRound resourceConflicts hostCapabilities previous s = some s' → P s')
    (hs : P s) :
    ∃ r bound, P r ∧ isolationRound resourceConflicts hostCapabilities previous r = none ∧
      ∀ n, bound < n → loopWithin (isolationRound resourceConflicts hostCapabilities previous) n s = some r := by
  let ids := s.effective.map.keys
  let round := isolationRound resourceConflicts hostCapabilities previous
  have hinside : ∀ s s', (P s ∧ ∀ id, s.effective.map.has id = true → id ∈ ids) → round s = some s' →
      P s' ∧ ∀ id, s'.effective.map.has id = true → id ∈ ids := by
    intro s s' hs hstep
    obtain ⟨restores, heffect⟩ := isolationRound_effect hresources hstep
    exact ⟨hkeep s s' hs.1 hstep, fun id hid => hs.2 id (heffect.no_newcomer hid)⟩
  have hshrinks : ∀ s s', (P s ∧ ∀ id, s.effective.map.has id = true → id ∈ ids) → round s = some s' →
      (ids.map (roundsLeft previous s'.effective)).sum < (ids.map (roundsLeft previous s.effective)).sum := by
    intro s s' hs hstep
    obtain ⟨restores, heffect⟩ := isolationRound_effect hresources hstep
    obtain ⟨id, hid, hless⟩ := roundsLeft_lt heffect
    exact List.sum_lt_sum _ _ (fun id _ => roundsLeft_le heffect id) ⟨id, hs.2 id hid, hless⟩
  obtain ⟨r, ⟨hr, -⟩, hdone, hrun⟩ := loopWithin_ends
    (fun s => (ids.map (roundsLeft previous s.effective)).sum) hinside hshrinks
    ⟨hs, fun id hid => InsertionMap.has_iff.mp hid⟩
  exact ⟨r, _, hr, hdone, hrun⟩

/-! ## Where the rounds end -/

/-- A graph in which nothing is invalid. -/
structure Settled (resourceConflicts : ResourceConflicts α) (hostCapabilities : List Capability)
    (previous effective : Candidates α) : Prop where
  resources : ∀ id, (resourceConflicts effective previous).has id = false
  unconflicting : ∀ id, ¬Conflicting hostCapabilities previous effective.nodes id
  cycles : requiredCycles effective (suppliersOf effective.nodes) hostCapabilities = []

theorem isolationRound_none {s : IsolationState α} (h : isolationRound resourceConflicts hostCapabilities previous s =
    none) : Settled resourceConflicts hostCapabilities previous s.effective := by
  unfold isolationRound at h
  dsimp only at h
  split at h
  case isTrue hempty =>
    have hnone (id : InstanceId) := (Bool.eq_false_iff.mp (isEmpty_iff.mp hempty id)) ∘ has_invalidMembers.mpr
    have hvalid (id : InstanceId) : (resourceConflicts s.effective previous).has id = false ∧
        ¬Conflicting hostCapabilities previous s.effective.nodes id :=
      ⟨Bool.eq_false_iff.mpr fun hid => hnone id (.inl (.inl hid)), fun hid => hnone id (.inl (.inr hid))⟩
    refine ⟨fun id => (hvalid id).1, fun id => (hvalid id).2, ?_⟩
    exact List.eq_nil_iff_forall_not_mem.mpr fun id hid => hnone id (.inr ⟨hvalid, hid⟩)
  case isFalse => split at h <;> cases h

end RabiRoute.PluginKernel
