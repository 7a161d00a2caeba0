import RabiRoute.Collections.InsertionMap
import RabiRoute.Graphs.Acyclic

/-!
# Searching a graph

`visit` is the depth-first search that collects the members of the cycles it closes, `reaches` the
search with a stack of pending nodes.
-/

namespace Graphs

open Collections Relation

variable {κ : Type} [DecidableEq κ]

/-! ## The search for cycles -/

structure Search (κ : Type) where
  completed : List κ := []
  cyclic : List κ := []

/-- `Set.add` for each item. -/
def addAll (set items : List κ) : List κ :=
  items.foldl (fun set item ↦ if item ∈ set then set else set ++ [item]) set

/-- The number of keys that are not on the stack. -/
def unvisited (keys path : List κ) : Nat := (keys.filter (· ∉ path)).length

theorem unvisited_lt {keys path : List κ} {id : κ} (hkeys : id ∈ keys) (hpath : id ∉ path) :
    unvisited keys (path ++ [id]) < unvisited keys path := by
  have hfilter : (keys.filter (· ∉ path ++ [id])) = (keys.filter (· ∉ path)).filter (· ≠ id) := by
    rw [List.filter_filter]
    refine List.filter_congr fun k _ => ?_
    by_cases h : k = id <;> simp [h]
  unfold unvisited
  rw [hfilter, List.length_filter_lt_length_iff_exists]
  exact ⟨id, List.mem_filter.mpr ⟨hkeys, by simpa using hpath⟩, by simp⟩

/-- Visit a node with the nodes on the stack in `path`.  A node on the stack closes a cycle, which is
the stack from there on. -/
def visit (keys : List κ) (next : κ → List κ) (skip : κ → Bool) (path : List κ) (id : κ)
    (s : Search κ) : Search κ :=
  if id ∈ s.completed ∨ skip id = true then s
  else if id ∈ path then { s with cyclic := addAll s.cyclic (path.dropWhile (· ≠ id)) }
  else if id ∈ keys then
    let s' := (next id).foldl (fun s n ↦ visit keys next skip (path ++ [id]) n s) s
    { s' with completed := s'.completed ++ [id] }
  else s
termination_by unvisited keys path
decreasing_by
  rename_i hpath hkeys
  exact unvisited_lt hkeys hpath

/-- The members of the cycles that the search closes. -/
def findCycles (keys : List κ) (next : κ → List κ) (skip : κ → Bool) : List κ :=
  (keys.foldl (fun s id ↦ visit keys next skip [] id s) {}).cyclic

/-- Visits of several nodes, one after the other. -/
inductive Visits (P : κ → Search κ → Search κ → Prop) : List κ → Search κ → Search κ → Prop
  | nil (s : Search κ) : Visits P [] s s
  | cons {id : κ} {rest : List κ} {s mid r : Search κ} :
      P id s mid → Visits P rest mid r → Visits P (id :: rest) s r

omit [DecidableEq κ] in
theorem visits_foldl {P : κ → Search κ → Search κ → Prop} {f : Search κ → κ → Search κ}
    (h : ∀ id s, P id s (f s id)) (ids : List κ) (s : Search κ) : Visits P ids s (ids.foldl f s) := by
  induction ids generalizing s with
  | nil => exact .nil s
  | cons id rest ih => exact .cons (h id s) (ih (f s id))

omit [DecidableEq κ] in
theorem Visits.cyclic {P : κ → Search κ → Search κ → Prop} {Q : κ → Prop} {ids : List κ} {s r : Search κ} (h : Visits P
    ids s r) (hvisit : ∀ id ∈ ids, ∀ s r, P id s r → ∀ c ∈ r.cyclic, c ∈ s.cyclic ∨ Q c) : ∀ c ∈ r.cyclic, c ∈ s.cyclic
    ∨ Q c := by
  induction h with
  | nil s => exact fun _ hc => .inl hc
  | cons hfirst _ ih =>
    intro c hc
    rcases ih (fun id hid => hvisit id (List.mem_cons_of_mem _ hid)) c hc with hmid | hq
    · exact hvisit _ List.mem_cons_self _ _ hfirst c hmid
    · exact .inr hq

section

variable {keys : List κ} {next : κ → List κ} {skip : κ → Bool}

/-- The rule for `visit`: one case for each way a visit can go. -/
theorem visit_rule {P : List κ → κ → Search κ → Search κ → Prop}
    (hdone : ∀ path id s, id ∈ s.completed ∨ skip id = true → P path id s s)
    (habsent : ∀ path id s, id ∉ keys → P path id s s)
    (hcycle : ∀ path id s, id ∈ path →
      P path id s { s with cyclic := addAll s.cyclic (path.dropWhile (· ≠ id)) })
    (henter : ∀ path id s s', skip id = false → id ∈ keys →
      Visits (P (path ++ [id])) (next id) s s' →
      P path id s { s' with completed := s'.completed ++ [id] })
    (path : List κ) (id : κ) (s : Search κ) : P path id s (visit keys next skip path id s) := by
  induction hn : unvisited keys path using Nat.strongRecOn generalizing path id s with
  | ind n ih =>
    unfold visit
    split
    case isTrue h => exact hdone path id s h
    case isFalse h =>
      split
      case isTrue hpath => exact hcycle path id s hpath
      case isFalse hpath =>
        split
        case isFalse hkeys => exact habsent path id s hkeys
        case isTrue hkeys =>
          have hless := hn ▸ unvisited_lt hkeys hpath
          refine henter path id s _ (by simpa using fun h' => h (.inr h')) hkeys ?_
          exact visits_foldl (fun m s => ih _ hless (path ++ [id]) m s rfl) (next id) s

/-- `a` is searched and leads to `b`. -/
def Follows (keys : List κ) (next : κ → List κ) (skip : κ → Bool) (a b : κ) : Prop :=
  a ∈ keys ∧ skip a = false ∧ b ∈ next a

/-- `a` and `b` are searched and `a` leads to `b`. -/
def Leads (keys : List κ) (next : κ → List κ) (skip : κ → Bool) (a b : κ) : Prop :=
  Follows keys next skip a b ∧ b ∈ keys ∧ skip b = false

theorem mem_addAll {set items : List κ} {k : κ} : k ∈ addAll set items ↔ k ∈ set ∨ k ∈ items := by
  unfold addAll
  induction items generalizing set with
  | nil => simp
  | cons item rest ih =>
    rw [List.foldl_cons, ih, List.mem_cons]
    split
    case isTrue h =>
      constructor
      · exact fun hk => hk.imp_right .inr
      · rintro (hk | rfl | hk)
        · exact .inl hk
        · exact .inl h
        · exact .inr hk
    case isFalse => rw [List.mem_append, List.mem_singleton, or_assoc]

theorem nodup_addAll {set items : List κ} (h : set.Nodup) : (addAll set items).Nodup := by
  unfold addAll
  induction items generalizing set with
  | nil => exact h
  | cons item rest ih =>
    refine ih ?_
    dsimp only
    split
    case isTrue => exact h
    case isFalse hnew =>
      refine List.nodup_append.mpr ⟨h, List.nodup_singleton item, fun a ha b hb => ?_⟩
      rintro rfl
      exact hnew (List.mem_singleton.mp hb ▸ ha)

omit [DecidableEq κ] in
/-- Along a chain each member follows from the first and leads to the last. -/
theorem chain_ends {R : κ → κ → Prop} {a b : κ} {l : List κ} (h : (a :: l ++ [b]).IsChain R) :
    ∀ c ∈ a :: l, ReflTransGen R a c ∧ TransGen R c b := by
  induction l generalizing a with
  | nil =>
    intro c hc
    obtain rfl := List.mem_singleton.mp hc
    exact ⟨.refl, .single (List.isChain_cons_cons.mp h).1⟩
  | cons x rest ih =>
    obtain ⟨hfirst, hrest⟩ := List.isChain_cons_cons.mp h
    intro c hc
    rcases List.mem_cons.mp hc with rfl | hc
    · exact ⟨.refl, .head hfirst (ih hrest x List.mem_cons_self).2⟩
    · obtain ⟨hto, hfrom⟩ := ih hrest c hc
      exact ⟨.head hfirst hto, hfrom⟩

theorem mem_dropWhile_ne {l : List κ} {a : κ} (h : a ∈ l) :
    ∃ l₁ l₂, l = l₁ ++ a :: l₂ ∧ l.dropWhile (· ≠ a) = a :: l₂ := by
  induction l with
  | nil => cases h
  | cons x rest ih =>
    by_cases hx : x = a
    · exact ⟨[], rest, by simp [hx], by simp [hx]⟩
    · obtain ⟨l₁, l₂, hl, hdrop⟩ := ih ((List.mem_cons.mp h).resolve_left fun h => hx h.symm)
      refine ⟨x :: l₁, l₂, by rw [hl, List.cons_append], ?_⟩
      rw [List.dropWhile_cons_of_pos (by simpa using hx), hdrop]

/-- What a visit collects lies on cycles of the graph. -/
theorem visit_cyclic (path : List κ) (id : κ) (s : Search κ)
    (hpath : (path ++ [id]).IsChain (Follows keys next skip)) :
    ∀ c ∈ (visit keys next skip path id s).cyclic,
      c ∈ s.cyclic ∨ TransGen (Follows keys next skip) c c := by
  refine visit_rule (P := fun path id s r => (path ++ [id]).IsChain (Follows keys next skip) →
    ∀ c ∈ r.cyclic, c ∈ s.cyclic ∨ TransGen (Follows keys next skip) c c) ?_ ?_ ?_ ?_ path id s hpath
  · exact fun _ _ _ _ _ _ hc => .inl hc
  · exact fun _ _ _ _ _ _ hc => .inl hc
  · intro path id s hid hchain c hc
    obtain ⟨l₁, l₂, hl, hdrop⟩ := mem_dropWhile_ne hid
    have hsuffix : (id :: l₂ ++ [id]).IsChain (Follows keys next skip) := by
      rw [hl, List.append_assoc] at hchain
      exact hchain.right_of_append
    refine (mem_addAll.mp hc).imp_right fun hc => ?_
    rw [hdrop] at hc
    obtain ⟨hto, hfrom⟩ := chain_ends hsuffix c hc
    exact hfrom.trans_left hto
  · intro path id s s' hskip hkeys hvisits hchain
    refine hvisits.cyclic fun n hn s r hr => hr ?_
    rw [List.append_assoc]
    exact List.isChain_split.mpr ⟨hchain, List.isChain_pair.mpr ⟨hkeys, hskip, hn⟩⟩

/-- A member that is found depends on itself. -/
theorem mem_findCycles {c : κ} (h : c ∈ findCycles keys next skip) : TransGen (Follows keys next skip) c c := by
  have hvisits := visits_foldl (P := fun id s r => ∀ c ∈ r.cyclic, c ∈ s.cyclic ∨ TransGen (Follows keys next skip) c c)
    (fun id s => visit_cyclic [] id s (List.isChain_singleton id)) keys {}
  exact (hvisits.cyclic (fun _ _ _ _ hr => hr) c h).resolve_left List.not_mem_nil

/-- What a visit leaves: as long as no cycle was found, what is completed is accessible. -/
structure Searched (keys : List κ) (next : κ → List κ) (skip : κ → Bool) (ids : List κ)
    (s r : Search κ) : Prop where
  completed : s.completed ⊆ r.completed
  cyclic : s.cyclic ⊆ r.cyclic
  acc : r.cyclic = [] → (∀ c ∈ s.completed, Acc (fun b a ↦ Leads keys next skip a b) c) →
    ∀ c ∈ r.completed, Acc (fun b a ↦ Leads keys next skip a b) c
  all : r.cyclic = [] → ∀ id ∈ ids, id ∈ keys → skip id = false → id ∈ r.completed

omit [DecidableEq κ] in
theorem Searched.visits {ids : List κ} {s r : Search κ}
    (h : Visits (fun id => Searched keys next skip [id]) ids s r) : Searched keys next skip ids s r := by
  induction h with
  | nil s => exact ⟨fun _ h => h, fun _ h => h, fun _ h => h, fun _ _ h => absurd h List.not_mem_nil⟩
  | @cons id rest s mid r hfirst hrest ih =>
    have hnone (h : r.cyclic = []) : mid.cyclic = [] := List.subset_nil.mp (h ▸ ih.cyclic)
    refine ⟨List.Subset.trans hfirst.completed ih.completed, List.Subset.trans hfirst.cyclic ih.cyclic, ?_, ?_⟩
    · exact fun hr hs => ih.acc hr (hfirst.acc (hnone hr) hs)
    · intro hr n hn hkeys hskip
      rcases List.mem_cons.mp hn with rfl | hn
      · exact ih.completed (hfirst.all (hnone hr) n List.mem_cons_self hkeys hskip)
      · exact ih.all hr n hn hkeys hskip

theorem visit_searched (path : List κ) (id : κ) (s : Search κ) :
    Searched keys next skip [id] s (visit keys next skip path id s) := by
  refine visit_rule (P := fun _ id => Searched keys next skip [id]) ?_ ?_ ?_ ?_ path id s
  · intro path id s h
    refine ⟨fun _ h => h, fun _ h => h, fun _ h => h, fun _ n hn _ hskip => ?_⟩
    obtain rfl := List.mem_singleton.mp hn
    exact h.resolve_right (by simp [hskip])
  · intro path id s h
    refine ⟨fun _ h => h, fun _ h => h, fun _ h => h, fun _ n hn hkeys _ => ?_⟩
    obtain rfl := List.mem_singleton.mp hn
    exact absurd hkeys h
  · intro path id s hid
    obtain ⟨l₁, l₂, -, hdrop⟩ := mem_dropWhile_ne hid
    -- the cycle is not empty
    have hfound : addAll s.cyclic (path.dropWhile (· ≠ id)) ≠ [] :=
      List.ne_nil_of_mem (mem_addAll.mpr (.inr (hdrop ▸ List.mem_cons_self)))
    exact ⟨fun _ h => h, fun _ h => mem_addAll.mpr (.inl h), fun h => absurd h hfound,
      fun h => absurd h hfound⟩
  · intro path id s s' _ _ hvisits
    have hnext := Searched.visits hvisits
    refine ⟨List.subset_append_of_subset_left _ hnext.completed, hnext.cyclic, ?_, ?_⟩
    · intro hr hs c hc
      have hacc := hnext.acc hr hs
      rcases List.mem_append.mp hc with hc | hc
      · exact hacc c hc
      · obtain rfl := List.mem_singleton.mp hc
        exact ⟨_, fun b hb => hacc b (hnext.all hr b hb.1.2.2 hb.2.1 hb.2.2)⟩
    · intro _ n hn _ _
      obtain rfl := List.mem_singleton.mp hn
      exact List.mem_append_right _ List.mem_cons_self

/-- A search that finds nothing proves that there is no cycle. -/
theorem findCycles_nil (h : findCycles keys next skip = []) : Acyclic (Leads keys next skip) := by
  have hall : Searched keys next skip keys {} _ :=
    Searched.visits (visits_foldl (fun id s => visit_searched [] id s) keys {})
  refine acyclic_of_acc fun a b hab => ?_
  exact hall.acc h (fun _ hc => absurd hc List.not_mem_nil) a (hall.all h a hab.1.1 hab.1.1 hab.1.2.1)

end

/-! ## The search for a target -/

/-- What is still to be pushed: the edges of the nodes that were not seen. -/
def unseen (edges : InsertionMap κ (List κ)) (seen : List κ) : Nat :=
  edges.total fun k targets ↦ if k ∈ seen then 0 else targets.length + 1

theorem unseen_cons (edges : InsertionMap κ (List κ)) {seen : List κ} {id : κ} (hnew : id ∉ seen) :
    unseen edges (id :: seen) + ((edges.get? id).getD []).length ≤ unseen edges seen := by
  have hrest : ∀ l : List (κ × List κ), (∀ e ∈ l, e.1 ≠ id) →
      (l.map fun e => if e.1 ∈ id :: seen then 0 else e.2.length + 1) =
        l.map fun e => if e.1 ∈ seen then 0 else e.2.length + 1 := by
    intro l hl
    exact List.map_congr_left fun e he => by simp only [List.mem_cons, hl e he, false_or]
  unfold unseen InsertionMap.total
  cases hget : edges.get? id with
  | none =>
    have hne : ∀ e ∈ edges.entries, e.1 ≠ id := by
      rintro e he rfl
      exact InsertionMap.get?_eq_none.mp hget e.2 he
    rw [hrest edges.entries hne]
    exact Nat.le_refl _
  | some targets =>
    obtain ⟨l₁, l₂, hsplit, h₁, h₂⟩ := InsertionMap.entries_split hget
    rw [hsplit]
    simp only [List.map_append, List.map_cons, List.sum_append, List.sum_cons, Option.getD_some]
    rw [hrest l₁ h₁, hrest l₂ h₂, if_pos List.mem_cons_self, if_neg hnew]
    omega

/-- Search for the target from the pending nodes; the first of them is the top of the stack. -/
def reachesFrom (edges : InsertionMap κ (List κ)) (target : κ) (pending seen : List κ) : Bool :=
  match pending with
  | [] => false
  | id :: rest =>
    if id = target then true
    else if id ∈ seen then reachesFrom edges target rest seen
    else reachesFrom edges target (((edges.get? id).getD []).reverse ++ rest) (id :: seen)
termination_by unseen edges seen + pending.length
decreasing_by
  · simp
  · rename_i hnew
    have := unseen_cons edges hnew
    simp only [List.length_append, List.length_reverse, List.length_cons]
    omega

def reaches (edges : InsertionMap κ (List κ)) (start target : κ) : Bool :=
  reachesFrom edges target [start] []

/-- `b` is a target of an edge of `a`. -/
def EdgeOf (edges : InsertionMap κ (List κ)) (a b : κ) : Prop := b ∈ (edges.get? a).getD []

/-- A search that fails leaves a closed set around what was pending, without the target. -/
theorem reachesFrom_false {edges : InsertionMap κ (List κ)} {target : κ} {pending seen : List κ}
    (h : reachesFrom edges target pending seen = false)
    (hseen : ∀ a ∈ seen, ∀ b, EdgeOf edges a b → b ∈ seen ∨ b ∈ pending) (htarget : target ∉ seen) :
    ∃ closed : κ → Prop, (∀ a ∈ pending, closed a) ∧ (∀ a ∈ seen, closed a) ∧
      (∀ a b, closed a → EdgeOf edges a b → closed b) ∧ ¬closed target := by
  induction pending, seen using reachesFrom.induct edges target with
  | case1 seen =>
    refine ⟨(· ∈ seen), fun _ h => absurd h List.not_mem_nil, fun _ h => h, fun a b ha hab => ?_, htarget⟩
    exact (hseen a ha b hab).resolve_right List.not_mem_nil
  | case2 seen rest =>
    unfold reachesFrom at h
    rw [if_pos rfl] at h
    cases h
  | case3 seen id rest hid hmem ih =>
    unfold reachesFrom at h
    rw [if_neg hid, if_pos hmem] at h
    have hrest : ∀ a ∈ seen, ∀ b, EdgeOf edges a b → b ∈ seen ∨ b ∈ rest := by
      intro a ha b hab
      rcases hseen a ha b hab with hb | hb
      · exact .inl hb
      · rcases List.mem_cons.mp hb with rfl | hb
        · exact .inl hmem
        · exact .inr hb
    obtain ⟨closed, hpending, hold, hstep, hout⟩ := ih h hrest htarget
    exact ⟨closed, List.forall_mem_cons.mpr ⟨hold id hmem, hpending⟩, hold, hstep, hout⟩
  | case4 seen id rest hid hmem ih =>
    unfold reachesFrom at h
    rw [if_neg hid, if_neg hmem] at h
    have hpushed : ∀ a ∈ id :: seen, ∀ b, EdgeOf edges a b →
        b ∈ id :: seen ∨ b ∈ ((edges.get? id).getD []).reverse ++ rest := by
      intro a ha b hab
      rcases List.mem_cons.mp ha with rfl | ha
      · exact .inr (List.mem_append_left _ (List.mem_reverse.mpr hab))
      · rcases hseen a ha b hab with hb | hb
        · exact .inl (List.mem_cons_of_mem id hb)
        · rcases List.mem_cons.mp hb with rfl | hb
          · exact .inl List.mem_cons_self
          · exact .inr (List.mem_append_right _ hb)
    have hnot : target ∉ id :: seen := fun h => (List.mem_cons.mp h).elim (fun h => hid h.symm) htarget
    obtain ⟨closed, hpending, hold, hstep, hout⟩ := ih h hpushed hnot
    refine ⟨closed, List.forall_mem_cons.mpr ⟨hold id List.mem_cons_self, fun a ha => ?_⟩,
      fun a ha => hold a (List.mem_cons_of_mem id ha), hstep, hout⟩
    exact hpending a (List.mem_append_right _ ha)

/-- A search that fails proves that no path leads to the target. -/
theorem reaches_false {edges : InsertionMap κ (List κ)} {start target : κ}
    (h : reaches edges start target = false) : ¬ReflTransGen (EdgeOf edges) start target := by
  obtain ⟨closed, hpending, -, hstep, hout⟩ := reachesFrom_false h
    (fun _ h => absurd h List.not_mem_nil) List.not_mem_nil
  intro hpath
  refine hout ?_
  clear hout h
  induction hpath with
  | refl => exact hpending start List.mem_cons_self
  | tail _ hab ih => exact hstep _ _ ih hab

end Graphs
