import RabiRoute.Collections.InsertionMap
import RabiRoute.Graphs.Acyclic
import RabiRoute.Graphs.Loop

/-!
# Ordering a graph by its indegrees

A queue holds the nodes whose dependencies were all taken.  A graph without a cycle is ordered
completely.
-/

namespace Graphs

open Collections

variable {κ : Type} [DecidableEq κ]

/-- An order for the queue. -/
structure Sorting (κ : Type) where
  sort : List κ → List κ
  perm : ∀ l, (sort l).Perm l

structure Taking (κ : Type) where
  indegree : InsertionMap κ Int
  queue : List κ
  order : List κ := []

/-- One dependency of `dependent` was taken. -/
def release (sorting : Sorting κ) (s : InsertionMap κ Int × List κ) (dependent : κ) :
    InsertionMap κ Int × List κ :=
  let degree := (s.1.get? dependent).getD 0 - 1
  (s.1.set dependent degree, if degree = 0 then sorting.sort (s.2 ++ [dependent]) else s.2)

def takeNext (sorting : Sorting κ) (dependents : InsertionMap κ (List κ)) (s : Taking κ) :
    Option (Taking κ) :=
  match s.queue with
  | [] => none
  | id :: rest =>
    let released := ((dependents.get? id).getD []).foldl (release sorting) (s.indegree, rest)
    some { indegree := released.1, queue := released.2, order := s.order ++ [id] }

/-- The nodes that still wait, and those in the queue. -/
def toTake (indegree : InsertionMap κ Int) (queue : List κ) : Nat :=
  indegree.total (fun _ degree ↦ if 0 < degree then 1 else 0) + queue.length

section

variable {sorting : Sorting κ} {dependents : InsertionMap κ (List κ)}

theorem toTake_release (s : InsertionMap κ Int × List κ) (dependent : κ) :
    toTake (release sorting s dependent).1 (release sorting s dependent).2 ≤ toTake s.1 s.2 := by
  have htotal := InsertionMap.total_set (m := s.1) (k := dependent)
    (a := (s.1.get? dependent).getD 0 - 1) fun _ degree => if 0 < degree then 1 else 0
  have hold : InsertionMap.measureAt (fun _ degree => if 0 < degree then 1 else 0) s.1 dependent =
      if 0 < (s.1.get? dependent).getD 0 then 1 else 0 := by
    unfold InsertionMap.measureAt
    cases s.1.get? dependent <;> rfl
  rw [hold] at htotal
  unfold release toTake
  dsimp only
  split
  case isTrue hzero =>
    rw [hzero] at htotal ⊢
    rw [(sorting.perm _).length_eq, List.length_append, List.length_singleton]
    have hpos : 0 < (s.1.get? dependent).getD 0 := by omega
    rw [if_pos hpos, if_neg (by decide)] at htotal
    omega
  case isFalse =>
    split at htotal <;> split at htotal <;> omega

variable (sorting) in
theorem toTake_releases (ids : List κ) (s : InsertionMap κ Int × List κ) :
    toTake (ids.foldl (release sorting) s).1 (ids.foldl (release sorting) s).2 ≤ toTake s.1 s.2 := by
  induction ids generalizing s with
  | nil => exact Nat.le_refl _
  | cons id rest ih => exact Nat.le_trans (ih (release sorting s id)) (toTake_release s id)

theorem takeNext_lt {s s' : Taking κ} (h : takeNext sorting dependents s = some s') :
    toTake s'.indegree s'.queue < toTake s.indegree s.queue := by
  unfold takeNext at h
  split at h
  case h_1 => cases h
  case h_2 id rest hqueue =>
    obtain rfl := Option.some.inj h
    have hrest := toTake_releases sorting ((dependents.get? id).getD []) (s.indegree, rest)
    refine Nat.lt_of_le_of_lt hrest ?_
    unfold toTake
    rw [hqueue, List.length_cons]
    exact Nat.lt_succ_self _

end

/-- The order in which the nodes are taken, those of degree zero first. -/
def takeAll (sorting : Sorting κ) (dependents : InsertionMap κ (List κ)) (indegree : InsertionMap κ Int) :
    List κ :=
  let ready := (indegree.entries.filter fun e ↦ decide (e.2 = 0)).map Prod.fst
  (whileSome (takeNext sorting dependents) (fun s ↦ toTake s.indegree s.queue)
    (fun _ _ ↦ takeNext_lt) { indegree, queue := sorting.sort ready }).order

/-! ## The order is complete -/

/-- The degrees count the distinct dependencies, and the dependents are the other direction. -/
structure Counted (needs : κ → List κ) (indegree : InsertionMap κ Int)
    (dependents : InsertionMap κ (List κ)) : Prop where
  distinct : ∀ d, (needs d).Nodup
  degree : ∀ d n, indegree.get? d = some n → n = (needs d).length
  dependents_nodup : ∀ p, ((dependents.get? p).getD []).Nodup
  mem_dependents : ∀ p d, d ∈ (dependents.get? p).getD [] ↔ indegree.has d = true ∧ p ∈ needs d

/-- What the loop keeps. -/
structure TakingInv (needs : κ → List κ) (nodes : List κ) (s : Taking κ) : Prop where
  nodup : (s.order ++ s.queue).Nodup
  degree : ∀ d ∈ nodes, s.indegree.get? d = some (((needs d).filter (· ∉ s.order)).length : Int)
  ready : ∀ d, d ∈ s.order ++ s.queue ↔ d ∈ nodes ∧ ∀ p ∈ needs d, p ∈ s.order

section

variable {sorting : Sorting κ} {needs : κ → List κ} {indegree : InsertionMap κ Int}
  {dependents : InsertionMap κ (List κ)} {nodes : List κ}

variable (sorting) in
/-- Releasing distinct nodes takes one from the degree of each and queues those at zero. -/
theorem releases_spec {ids : List κ} (hids : ids.Nodup) (s : InsertionMap κ Int × List κ) :
    (∀ d, (ids.foldl (release sorting) s).1.get? d =
      if d ∈ ids then some ((s.1.get? d).getD 0 - 1) else s.1.get? d) ∧
    (ids.foldl (release sorting) s).2.Perm (s.2 ++ ids.filter fun d => decide ((s.1.get? d).getD 0 = 1)) := by
  induction ids generalizing s with
  | nil => exact ⟨fun _ => rfl, by simp⟩
  | cons id rest ih =>
    rw [List.nodup_cons] at hids
    obtain ⟨hget, hperm⟩ := ih hids.2 (release sorting s id)
    have hother : ∀ d, d ≠ id → (release sorting s id).1.get? d = s.1.get? d :=
      fun d hd => InsertionMap.get?_set_of_ne hd
    constructor
    · intro d
      rw [List.foldl_cons, hget]
      by_cases hd : d = id
      · rw [hd, if_neg hids.1, if_pos List.mem_cons_self]
        exact InsertionMap.get?_set_self
      · rw [hother d hd]
        simp only [List.mem_cons, hd, false_or]
    · have hfilter : (rest.filter fun d => decide (((release sorting s id).1.get? d).getD 0 = 1)) =
          rest.filter fun d => decide ((s.1.get? d).getD 0 = 1) :=
        List.filter_congr fun d hd => by rw [hother d fun h => hids.1 (h ▸ hd)]
      rw [List.foldl_cons]
      refine hperm.trans ?_
      rw [hfilter]
      by_cases hone : (s.1.get? id).getD 0 = 1
      · have hqueue : (release sorting s id).2.Perm (s.2 ++ [id]) := by
          unfold release
          dsimp only
          rw [if_pos (by omega)]
          exact sorting.perm _
        rw [List.filter_cons_of_pos (by simpa using hone)]
        refine (hqueue.append_right _).trans ?_
        rw [List.append_assoc]
        exact .refl _
      · have hqueue : (release sorting s id).2 = s.2 := by
          unfold release
          dsimp only
          rw [if_neg (by omega)]
        rw [List.filter_cons_of_neg (by simpa using hone), hqueue]

/-- The dependencies that are not taken yet, after one more is taken. -/
theorem length_filter_take {l order : List κ} {id : κ} (hl : l.Nodup) (hid : id ∉ order) :
    ((l.filter (· ∉ order)).length : Int) =
      (l.filter (· ∉ order ++ [id])).length + if id ∈ l then 1 else 0 := by
  have herase : l.filter (· ∉ order ++ [id]) = (l.filter (· ∉ order)).erase id := by
    rw [(hl.filter _).erase_eq_filter, List.filter_filter]
    refine List.filter_congr fun k _ => ?_
    by_cases h : k = id <;> simp [h]
  rw [herase]
  split
  case isTrue hmem =>
    have hin : id ∈ l.filter (· ∉ order) := List.mem_filter.mpr ⟨hmem, by simpa using hid⟩
    have hlen := List.length_erase_of_mem hin
    have hpos := List.length_pos_of_mem hin
    omega
  case isFalse hmem =>
    rw [List.erase_of_not_mem fun h => hmem (List.mem_filter.mp h).1]
    omega

theorem TakingInv.next (hcounted : Counted needs indegree dependents) (hnodes : nodes = indegree.keys) {s s' : Taking κ}
    (h : TakingInv needs nodes s) (hstep : takeNext sorting dependents s = some s') : TakingInv needs nodes s' := by
  unfold takeNext at hstep
  split at hstep
  case h_1 => cases hstep
  case h_2 id rest hqueue =>
    obtain rfl := Option.some.inj hstep
    have hmem (d : κ) : d ∈ (dependents.get? id).getD [] ↔ d ∈ nodes ∧ id ∈ needs d := by
      rw [hcounted.mem_dependents, hnodes, InsertionMap.mem_keys, InsertionMap.has, Option.isSome_iff_exists]
    obtain ⟨hget, hperm⟩ := releases_spec sorting (hcounted.dependents_nodup id) (s.indegree, rest)
    have hnodup : (s.order ++ [id] ++ rest).Nodup := by
      have hold := h.nodup
      rw [hqueue] at hold
      rwa [List.append_assoc]
    have hid : id ∉ s.order := by
      have hdisjoint := List.nodup_append.mp (List.nodup_append.mp hnodup).1
      exact fun hin => hdisjoint.2.2 id hin id List.mem_cons_self rfl
    have hready (d : κ) : d ∈ s.order ++ [id] ++ rest ↔ d ∈ nodes ∧ ∀ p ∈ needs d, p ∈ s.order := by
      rw [← h.ready, hqueue, List.append_assoc]
      exact Iff.rfl
    -- a dependent of degree one waits for nothing but `id`
    have hone (d : κ) (hd : d ∈ nodes) (hneeds : id ∈ needs d) : (s.indegree.get? d).getD 0 = 1 ↔
        ∀ p ∈ needs d, p ∈ s.order ++ [id] := by
      have hlen := length_filter_take (hcounted.distinct d) hid
      rw [if_pos hneeds] at hlen
      rw [h.degree d hd, Option.getD_some]
      have hempty : (needs d).filter (· ∉ s.order ++ [id]) = [] ↔ ∀ p ∈ needs d, p ∈ s.order ++ [id] := by
        rw [List.filter_eq_nil_iff]
        simp only [decide_eq_true_eq, Decidable.not_not]
      rw [← hempty, ← List.length_eq_zero_iff]
      omega
    refine ⟨?_, fun d hd => ?_, fun d => ?_⟩
    · refine (hperm.append_left (s.order ++ [id])).nodup_iff.mpr ?_
      rw [← List.append_assoc]
      refine List.nodup_append.mpr ⟨hnodup, (hcounted.dependents_nodup id).filter _, fun a ha b hb => ?_⟩
      rintro rfl
      have hneeds := ((hmem a).mp (List.mem_filter.mp hb).1).2
      exact hid (((hready a).mp ha).2 id hneeds)
    · show (((dependents.get? id).getD []).foldl (release sorting) (s.indegree, rest)).1.get? d =
        some (((needs d).filter (· ∉ s.order ++ [id])).length : Int)
      rw [hget]
      have hlen := length_filter_take (hcounted.distinct d) hid
      split
      case isTrue hd' =>
        rw [if_pos ((hmem d).mp hd').2] at hlen
        rw [h.degree d hd, Option.getD_some, hlen]
        exact congrArg some (by omega)
      case isFalse hd' =>
        rw [if_neg fun hneeds => hd' ((hmem d).mpr ⟨hd, hneeds⟩)] at hlen
        rw [h.degree d hd, hlen]
        exact congrArg some (by omega)
    · show d ∈ s.order ++ [id] ++ (((dependents.get? id).getD []).foldl (release sorting) (s.indegree, rest)).2 ↔ _
      rw [(hperm.append_left (s.order ++ [id])).mem_iff, ← List.append_assoc, List.mem_append, hready,
        List.mem_filter, hmem, decide_eq_true_eq]
      constructor
      · rintro (⟨hd, hall⟩ | ⟨⟨hd, hneeds⟩, hdegree⟩)
        · exact ⟨hd, fun p hp => List.mem_append_left _ (hall p hp)⟩
        · exact ⟨hd, (hone d hd hneeds).mp hdegree⟩
      · rintro ⟨hd, hall⟩
        by_cases hneeds : id ∈ needs d
        · exact .inr ⟨⟨hd, hneeds⟩, (hone d hd hneeds).mpr hall⟩
        · refine .inl ⟨hd, fun p hp => (List.mem_append.mp (hall p hp)).resolve_right fun hid => ?_⟩
          exact hneeds (List.mem_singleton.mp hid ▸ hp)

/-- The nodes without dependencies are ready. -/
theorem TakingInv.start (hcounted : Counted needs indegree dependents) (sorting : Sorting κ) :
    TakingInv needs indegree.keys
      { indegree, queue := sorting.sort ((indegree.entries.filter fun e => decide (e.2 = 0)).map Prod.fst) } := by
  have hmemReady (d : κ) : d ∈ (indegree.entries.filter fun e => decide (e.2 = 0)).map Prod.fst ↔
      indegree.get? d = some 0 := by
    rw [InsertionMap.get?_eq_some, List.mem_map]
    constructor
    · rintro ⟨⟨d', n⟩, hmem, rfl⟩
      obtain ⟨hmem, hzero⟩ := List.mem_filter.mp hmem
      obtain rfl : n = 0 := by simpa using hzero
      exact hmem
    · exact fun hmem => ⟨(d, 0), List.mem_filter.mpr ⟨hmem, rfl⟩, rfl⟩
  have hperm := sorting.perm ((indegree.entries.filter fun e => decide (e.2 = 0)).map Prod.fst)
  refine ⟨?_, fun d hd => ?_, fun d => ?_⟩
  · refine hperm.nodup_iff.mpr ?_
    exact indegree.nodup.sublist (List.filter_sublist.map _)
  · obtain ⟨n, hn⟩ := InsertionMap.mem_keys.mp hd
    rw [hn, hcounted.degree d n hn]
    simp
  · show d ∈ sorting.sort _ ↔ _
    rw [hperm.mem_iff, hmemReady]
    constructor
    · intro hzero
      have hlen := hcounted.degree d 0 hzero
      have hnil : needs d = [] := List.length_eq_zero_iff.mp (by omega)
      exact ⟨InsertionMap.mem_keys.mpr ⟨0, hzero⟩, fun p hp => absurd (hnil ▸ hp) List.not_mem_nil⟩
    · rintro ⟨hd, hall⟩
      obtain ⟨n, hn⟩ := InsertionMap.mem_keys.mp hd
      have hnil : needs d = [] := List.eq_nil_iff_forall_not_mem.mpr fun p hp =>
        absurd (hall p hp) List.not_mem_nil
      rw [hn, hcounted.degree d n hn, hnil]
      rfl

/-- Each node comes after its dependencies. -/
def Ordered (needs : κ → List κ) (order : List κ) : Prop :=
  ∀ before d after, order = before ++ d :: after → ∀ p ∈ needs d, p ∈ before

omit [DecidableEq κ] in
theorem Ordered.snoc {order : List κ} {d : κ} (h : Ordered needs order) (hd : ∀ p ∈ needs d, p ∈ order) :
    Ordered needs (order ++ [d]) := by
  intro before d' after heq p hp
  rcases List.eq_nil_or_concat after with rfl | ⟨after, last, rfl⟩
  · obtain ⟨rfl, hlast⟩ := List.append_inj' heq rfl
    exact hd p (List.singleton_inj.mp hlast ▸ hp)
  · rw [List.concat_eq_append, ← List.cons_append, ← List.append_assoc] at heq
    obtain ⟨rfl, -⟩ := List.append_inj' heq rfl
    exact h before d' after rfl p hp

/-- Where the loop ends, and what it has kept. -/
theorem takeAll_spec (hcounted : Counted needs indegree dependents) (sorting : Sorting κ) :
    ∃ final : Taking κ, takeAll sorting dependents indegree = final.order ∧ final.queue = [] ∧
      TakingInv needs indegree.keys final ∧ Ordered needs final.order := by
  have hspec := whileSome_spec (μ := fun s => toTake s.indegree s.queue)
    (P := fun s => TakingInv needs indegree.keys s ∧ Ordered needs s.order)
    (fun s s' (h : takeNext sorting dependents s = some s') => takeNext_lt h) ?_
    ⟨TakingInv.start hcounted sorting, fun before d after heq => ?_⟩
  · obtain ⟨⟨hinv, hordered⟩, hdone⟩ := hspec
    refine ⟨_, rfl, ?_, hinv, hordered⟩
    unfold takeNext at hdone
    split at hdone
    case h_1 hnil => exact hnil
    case h_2 => cases hdone
  · rintro s s' ⟨hinv, hordered⟩ hstep
    refine ⟨hinv.next hcounted rfl hstep, ?_⟩
    unfold takeNext at hstep
    split at hstep
    case h_1 => cases hstep
    case h_2 id rest hqueue =>
      obtain rfl := Option.some.inj hstep
      refine hordered.snoc ((hinv.ready id).mp (List.mem_append_right _ ?_)).2
      rw [hqueue]
      exact List.mem_cons_self
  · exact absurd heq.symm (List.append_ne_nil_of_right_ne_nil before (List.cons_ne_nil d after))

/-- Each node of a graph without a cycle is taken once. -/
theorem takeAll_complete (sorting : Sorting κ) (hcounted : Counted needs indegree dependents) (hinside : ∀ d p,
    indegree.has d = true → p ∈ needs d → indegree.has p = true) (hacyclic : Acyclic fun d p => indegree.has d = true ∧
    p ∈ needs d) : (takeAll sorting dependents indegree).Perm indegree.keys := by
  have hhas (d : κ) : d ∈ indegree.keys ↔ indegree.has d = true := by
    rw [InsertionMap.mem_keys, InsertionMap.has, Option.isSome_iff_exists]
  obtain ⟨final, htaken, hqueue, hinv, -⟩ := takeAll_spec hcounted sorting
  have hready := hinv.ready
  simp only [hqueue, List.append_nil] at hready
  rw [htaken]
  refine (List.perm_ext_iff_of_nodup ?_ indegree.nodup).mpr fun d => ?_
  · have hnodup := hinv.nodup
    rwa [hqueue, List.append_nil] at hnodup
  · refine ⟨fun hd => ((hready d).mp hd).1, fun hd => ?_⟩
    by_contra hleft
    -- of the nodes that are left one depends on none of them, so it would have been taken
    have hne : indegree.keys.filter (· ∉ final.order) ≠ [] :=
      List.ne_nil_of_mem (List.mem_filter.mpr ⟨hd, by simpa using hleft⟩)
    obtain ⟨a, ha, hsink⟩ := hacyclic.exists_sink hne
    obtain ⟨hkey, hnot⟩ := List.mem_filter.mp ha
    refine (by simpa using hnot : a ∉ final.order) ((hready a).mpr ⟨hkey, fun p hp => ?_⟩)
    by_contra hpending
    refine hsink p (List.mem_filter.mpr ⟨?_, by simpa using hpending⟩) ⟨(hhas a).mp hkey, hp⟩
    exact (hhas p).mpr (hinside a p ((hhas a).mp hkey) hp)

/-- An order of all nodes shows that there is no cycle. -/
theorem acyclic_of_takeAll (sorting : Sorting κ) (hcounted : Counted needs indegree dependents)
    (hlength : (takeAll sorting dependents indegree).length = indegree.keys.length) :
    (takeAll sorting dependents indegree).Perm indegree.keys ∧
      Acyclic fun d p => indegree.has d = true ∧ p ∈ needs d := by
  obtain ⟨final, htaken, hqueue, hinv, hordered⟩ := takeAll_spec hcounted sorting
  have hnodup := hinv.nodup
  have hready := hinv.ready
  simp only [hqueue, List.append_nil] at hnodup hready
  rw [htaken] at hlength ⊢
  have hperm : final.order.Perm indegree.keys :=
    (List.subperm_of_subset hnodup fun d hd => ((hready d).mp hd).1).perm_of_length_le (Nat.le_of_eq hlength.symm)
  refine ⟨hperm, fun a hcycle => ?_⟩
  -- a path goes back in the order
  have hback : ∀ d p, Relation.TransGen (fun d p => indegree.has d = true ∧ p ∈ needs d) d p →
      final.order.idxOf p < final.order.idxOf d := by
    have hone : ∀ d p, indegree.has d = true ∧ p ∈ needs d → final.order.idxOf p < final.order.idxOf d := by
      rintro d p ⟨hd, hp⟩
      obtain ⟨before, after, hsplit⟩ := List.append_of_mem (hperm.mem_iff.mpr (InsertionMap.has_iff.mp hd))
      have hbefore := hordered before d after hsplit p hp
      have hnew : d ∉ before := by
        rw [hsplit] at hnodup
        exact fun hin => (List.nodup_append.mp hnodup).2.2 d hin d List.mem_cons_self rfl
      rw [hsplit, List.idxOf_append_of_mem hbefore, List.idxOf_append_of_notMem hnew, List.idxOf_cons_self]
      exact Nat.lt_of_lt_of_le (List.idxOf_lt_length_of_mem hbefore) (Nat.le_add_right _ _)
    intro d p hpath
    induction hpath with
    | single hstep => exact hone d _ hstep
    | tail _ hstep ih => exact Nat.lt_trans (hone _ _ hstep) ih
  exact Nat.lt_irrefl _ (hback a a hcycle)

end

/-! ## The order depends on the graph alone -/

section

variable {sorting : Sorting κ} {needs : κ → List κ} {indegree indegree' : InsertionMap κ Int}
  {dependents dependents' : InsertionMap κ (List κ)} {r : κ → κ → Prop}

theorem pairwise_releases (hsorted : ∀ l, (sorting.sort l).Pairwise r) (ids : List κ)
    {s : InsertionMap κ Int × List κ} (h : s.2.Pairwise r) : (ids.foldl (release sorting) s).2.Pairwise r := by
  induction ids generalizing s with
  | nil => exact h
  | cons id rest ih =>
    apply ih
    unfold release
    dsimp only
    split
    · exact hsorted _
    · exact h

/-- The queue holds the nodes that are ready and not taken. -/
theorem TakingInv.mem_queue {nodes : List κ} {s : Taking κ} (h : TakingInv needs nodes s) (d : κ) :
    d ∈ s.queue ↔ (d ∈ nodes ∧ ∀ p ∈ needs d, p ∈ s.order) ∧ d ∉ s.order := by
  rw [← h.ready, List.mem_append]
  constructor
  · exact fun hd => ⟨.inr hd, fun hin => (List.nodup_append.mp h.nodup).2.2 d hin d hd rfl⟩
  · exact fun hd => hd.1.resolve_left hd.2

/-- What two runs of the loop have in common. -/
structure SameTaking (needs : κ → List κ) (nodes nodes' : List κ) (r : κ → κ → Prop) (s t : Taking κ) : Prop where
  left : TakingInv needs nodes s
  right : TakingInv needs nodes' t
  sorted : s.queue.Pairwise r ∧ t.queue.Pairwise r
  order : s.order = t.order

theorem SameTaking.queue {nodes nodes' : List κ} {s t : Taking κ} (h : SameTaking needs nodes nodes' r s t)
    (hanti : ∀ a b, r a b → r b a → a = b) (hnodes : ∀ d, d ∈ nodes ↔ d ∈ nodes') : s.queue = t.queue := by
  refine List.Perm.eq_of_pairwise (fun a b _ _ => hanti a b) h.sorted.1 h.sorted.2 ?_
  refine (List.perm_ext_iff_of_nodup ?_ ?_).mpr fun d => ?_
  · exact (List.nodup_append.mp h.left.nodup).2.1
  · exact (List.nodup_append.mp h.right.nodup).2.1
  · rw [h.left.mem_queue, h.right.mem_queue, h.order, hnodes]

theorem takeAll_congr (hsorted : ∀ l, (sorting.sort l).Pairwise r) (hanti : ∀ a b, r a b → r b a → a = b) (hcounted :
    Counted needs indegree dependents) (hcounted' : Counted needs indegree' dependents') (hkeys : ∀ d, d ∈ indegree.keys
    ↔ d ∈ indegree'.keys) : takeAll sorting dependents indegree = takeAll sorting dependents' indegree' := by
  have hstep : ∀ s t, SameTaking needs indegree.keys indegree'.keys r s t →
      (takeNext sorting dependents s = none ∧ takeNext sorting dependents' t = none) ∨
        ∃ s' t', takeNext sorting dependents s = some s' ∧ takeNext sorting dependents' t = some t' ∧
          SameTaking needs indegree.keys indegree'.keys r s' t' := by
    intro s t h
    have hqueue := h.queue hanti hkeys
    cases hs : takeNext sorting dependents s with
    | none =>
      refine .inl ⟨rfl, ?_⟩
      unfold takeNext at hs ⊢
      rw [hqueue] at hs
      split at hs
      case h_1 => rfl
      case h_2 => cases hs
    | some s' =>
      have hstep := hs
      unfold takeNext at hstep
      split at hstep
      case h_1 => cases hstep
      case h_2 id rest hid =>
        obtain rfl := Option.some.inj hstep
        have ht : takeNext sorting dependents' t = some
            { indegree := (((dependents'.get? id).getD []).foldl (release sorting) (t.indegree, rest)).1
              queue := (((dependents'.get? id).getD []).foldl (release sorting) (t.indegree, rest)).2
              order := t.order ++ [id] } := by
          unfold takeNext
          rw [← hqueue, hid]
        have hrest : rest.Pairwise r := by
          have hall := h.sorted.1
          rw [hid] at hall
          exact (List.pairwise_cons.mp hall).2
        refine .inr ⟨_, _, rfl, ht, h.left.next hcounted rfl hs, h.right.next hcounted' rfl ht,
          ⟨pairwise_releases hsorted _ hrest, pairwise_releases hsorted _ hrest⟩, ?_⟩
        show s.order ++ [id] = t.order ++ [id]
        rw [h.order]
  have hrelated : SameTaking needs indegree.keys indegree'.keys r
      (whileSome (takeNext sorting dependents) (fun s => toTake s.indegree s.queue) (fun _ _ => takeNext_lt) _)
      (whileSome (takeNext sorting dependents') (fun s => toTake s.indegree s.queue) (fun _ _ => takeNext_lt) _) :=
    whileSome_related hstep
      ⟨TakingInv.start hcounted sorting, TakingInv.start hcounted' sorting, ⟨hsorted _, hsorted _⟩, rfl⟩
  exact hrelated.order

end

end Graphs
