import Mathlib.Data.List.Sort
import Mathlib.Tactic.Common

/-!
# Lists that are sorted by a comparator

`sortBy` is a stable sort.  Two sorted lists with the same members differ only in repeats that stand next to
each other, and `squeeze` removes these; two orders of one list are sorted to the same list exactly when they
agree on the members that the comparator does not tell apart.
-/

namespace Collections

variable {α β : Type}

/-! ## The members without repeats -/

section Distinct

variable [DecidableEq α]

/-- `[...new Set(l)]`: the first occurrences. -/
def distinct : List α → List α
  | [] => []
  | a :: l => a :: (distinct l).filter (· ≠ a)

theorem mem_distinct {a : α} {l : List α} : a ∈ distinct l ↔ a ∈ l := by
  induction l with
  | nil => exact Iff.rfl
  | cons b l ih =>
    simp only [distinct, List.mem_cons, List.mem_filter, ih, decide_eq_true_eq]
    by_cases h : a = b
    · simp only [h, true_or]
    · simp only [h, false_or, ne_eq, not_false_eq_true, and_true]

theorem nodup_distinct (l : List α) : (distinct l).Nodup := by
  induction l with
  | nil => exact List.nodup_nil
  | cons a l ih =>
    exact List.nodup_cons.mpr ⟨fun h => by simpa using (List.mem_filter.mp h).2, ih.filter _⟩

theorem distinct_append (l l' : List α) :
    distinct (l ++ l') = distinct l ++ (distinct l').filter (fun a => decide (a ∉ l)) := by
  induction l with
  | nil => simp [distinct]
  | cons a l ih =>
    simp only [List.cons_append, distinct, ih, List.filter_append, List.filter_filter]
    refine congrArg (a :: _ ++ ·) (List.filter_congr fun b _ => ?_)
    simp only [List.mem_cons, not_or, Bool.decide_and]

theorem distinct_append_congr {l l' l'' : List α} (h : distinct l' = distinct l'') :
    distinct (l ++ l') = distinct (l ++ l'') := by
  rw [distinct_append, distinct_append, h]

theorem distinct_append_self (l l' : List α) : distinct (l ++ (l ++ l')) = distinct (l ++ l') := by
  have hown : (distinct l).filter (fun a => decide (a ∉ l)) = [] :=
    List.filter_eq_nil_iff.mpr fun a ha => by simpa using mem_distinct.mp ha
  rw [distinct_append l (l ++ l'), distinct_append l l', List.filter_append, hown, List.nil_append, List.filter_filter]
  simp only [Bool.and_self]

theorem one_lt_length_distinct {l : List α} : 1 < (distinct l).length ↔ ∃ a ∈ l, ∃ b ∈ l, a ≠ b := by
  constructor
  · intro h
    cases heq : distinct l with
    | nil => simp [heq] at h
    | cons a rest =>
      cases rest with
      | nil => simp [heq] at h
      | cons b rest =>
        have hnodup := heq ▸ nodup_distinct l
        refine ⟨a, mem_distinct.mp (heq ▸ List.mem_cons_self), b,
          mem_distinct.mp (heq ▸ List.mem_cons_of_mem _ List.mem_cons_self), fun hab => ?_⟩
        exact (List.nodup_cons.mp hnodup).1 (hab ▸ List.mem_cons_self)
  · rintro ⟨a, ha, b, hb, hne⟩
    have ha' := mem_distinct.mpr ha
    have hb' := mem_distinct.mpr hb
    refine Nat.lt_of_not_le fun hle => ?_
    cases heq : distinct l with
    | nil =>
      rw [heq] at ha'
      cases ha'
    | cons c rest =>
      have hrest : rest = [] := by
        rw [heq, List.length_cons] at hle
        exact List.eq_nil_of_length_eq_zero (by omega)
      rw [heq, hrest, List.mem_singleton] at ha' hb'
      exact hne (ha'.trans hb'.symm)

theorem distinct_append_singleton (l : List α) (a : α) :
    distinct (l ++ [a]) = if a ∈ l then distinct l else distinct l ++ [a] := by
  rw [distinct_append]
  by_cases h : a ∈ l
  · simp [distinct, h]
  · simp [distinct, h]

end Distinct

/-! ## Repeats next to each other -/

section Squeeze

variable [DecidableEq α]

def squeeze : List α → List α
  | [] => []
  | [a] => [a]
  | a :: b :: l => if a = b then squeeze (b :: l) else a :: squeeze (b :: l)

theorem mem_squeeze {a : α} {l : List α} : a ∈ squeeze l ↔ a ∈ l := by
  fun_induction squeeze l with
  | case1 => exact Iff.rfl
  | case2 => exact Iff.rfl
  | case3 b l ih =>
    rw [ih]
    simp only [List.mem_cons, or_self_left]
  | case4 b c l hne ih => rw [List.mem_cons, List.mem_cons (b := b), ih]

theorem squeeze_ne_nil {a : α} {l : List α} : squeeze (a :: l) ≠ [] :=
  fun h => List.not_mem_nil (h ▸ mem_squeeze.mpr (List.mem_cons_self (a := a) (l := l)))

theorem pairwise_squeeze {r : α → α → Prop} {l : List α} (h : l.Pairwise r)
    (hanti : ∀ a ∈ l, ∀ b ∈ l, r a b → r b a → a = b) : (squeeze l).Pairwise fun a b => r a b ∧ a ≠ b := by
  fun_induction squeeze l with
  | case1 => exact List.Pairwise.nil
  | case2 => exact List.pairwise_singleton _ _
  | case3 b l ih =>
    exact ih (List.pairwise_cons.mp h).2 fun a ha c hc =>
      hanti a (List.mem_cons_of_mem _ ha) c (List.mem_cons_of_mem _ hc)
  | case4 b c l hne ih =>
    obtain ⟨hb, hl⟩ := List.pairwise_cons.mp h
    refine List.pairwise_cons.mpr ⟨fun a ha => ?_, ih hl fun a ha d hd =>
      hanti a (List.mem_cons_of_mem _ ha) d (List.mem_cons_of_mem _ hd)⟩
    have hmem := mem_squeeze.mp ha
    refine ⟨hb a hmem, fun heq => ?_⟩
    -- `b` again after `c` would put `c` on both sides of it
    subst heq
    cases List.mem_cons.mp hmem with
    | inl h => exact hne h
    | inr hrest =>
      have hcb := (List.pairwise_cons.mp hl).1 b hrest
      exact hne (hanti b List.mem_cons_self c (List.mem_cons_of_mem _ List.mem_cons_self)
        (hb c List.mem_cons_self) hcb)

theorem squeeze_congr {r : α → α → Prop} {l l' : List α} (h : l.Pairwise r) (h' : l'.Pairwise r)
    (hanti : ∀ a ∈ l, ∀ b ∈ l, r a b → r b a → a = b) (hmem : ∀ a, a ∈ l ↔ a ∈ l') : squeeze l = squeeze l' := by
  have hanti' : ∀ a ∈ l', ∀ b ∈ l', r a b → r b a → a = b :=
    fun a ha b hb => hanti a ((hmem a).mpr ha) b ((hmem b).mpr hb)
  have hsorted := pairwise_squeeze h hanti
  have hsorted' := pairwise_squeeze h' hanti'
  have hperm : (squeeze l).Perm (squeeze l') :=
    (List.perm_ext_iff_of_nodup (hsorted.imp And.right) (hsorted'.imp And.right)).mpr fun a => by
      rw [mem_squeeze, mem_squeeze, hmem]
  refine hperm.eq_of_pairwise (fun a b ha hb hab hba => ?_) hsorted hsorted'
  exact hanti a (mem_squeeze.mp ha) b ((hmem b).mpr (mem_squeeze.mp hb)) hab.1 hba.1

theorem squeeze_map [DecidableEq β] (f : α → β) (l : List α) : squeeze ((squeeze l).map f) = squeeze (l.map f) := by
  have hcons : ∀ (b : β) (l l' : List β), squeeze l = squeeze l' → l.head? = l'.head? →
      squeeze (b :: l) = squeeze (b :: l') := by
    intro b l l' h hhead
    cases l with
    | nil =>
      cases l' with
      | nil => rfl
      | cons c l' => cases hhead
    | cons c l =>
      cases l' with
      | nil => cases hhead
      | cons c' l' =>
        cases hhead
        simp only [squeeze, h]
  have hhead : ∀ (a : α) (l : List α), (squeeze (a :: l)).head? = some a := by
    intro a l
    induction l with
    | nil => rfl
    | cons b l ih =>
      simp only [squeeze]
      split
      · next heq =>
          subst heq
          exact ih
      · rfl
  fun_induction squeeze l with
  | case1 => rfl
  | case2 => rfl
  | case3 b l ih =>
    rw [ih]
    simp only [List.map_cons, squeeze, if_true]
  | case4 b c l hne ih =>
    rw [List.map_cons, List.map_cons]
    refine hcons _ _ _ ih ?_
    rw [List.head?_map, hhead, List.head?_map, List.head?_cons]

theorem getLast?_squeeze (l : List α) : (squeeze l).getLast? = l.getLast? := by
  fun_induction squeeze l with
  | case1 => rfl
  | case2 => rfl
  | case3 b l ih => rw [ih, List.getLast?_cons_cons]
  | case4 b c l hne ih =>
    obtain ⟨d, rest, heq⟩ := List.exists_cons_of_ne_nil (squeeze_ne_nil (a := c) (l := l))
    rw [heq, List.getLast?_cons_cons, ← heq, ih, List.getLast?_cons_cons]

theorem findSome?_reverse_squeeze (f : α → Option β) (l : List α) :
    (squeeze l).reverse.findSome? f = l.reverse.findSome? f := by
  fun_induction squeeze l with
  | case1 => rfl
  | case2 => rfl
  | case3 b l ih =>
    rw [ih]
    simp only [List.reverse_cons, List.append_assoc, List.findSome?_append, List.findSome?_cons, List.findSome?_nil]
    cases l.reverse.findSome? f with
    | some d => rfl
    | none => cases f b <;> rfl
  | case4 b c l hne ih =>
    rw [List.reverse_cons, List.findSome?_append, ih, List.reverse_cons (a := b), List.findSome?_append]

theorem distinct_flatMap_squeeze [DecidableEq β] (f : α → List β) (l : List α) :
    distinct ((squeeze l).flatMap f) = distinct (l.flatMap f) := by
  fun_induction squeeze l with
  | case1 => rfl
  | case2 => rfl
  | case3 b l ih =>
    rw [ih, List.flatMap_cons, List.flatMap_cons, List.flatMap_cons, distinct_append_self]
  | case4 b c l hne ih =>
    rw [List.flatMap_cons, List.flatMap_cons]
    exact distinct_append_congr ih

end Squeeze

/-! ## Sorting -/

/-- `[...l].sort(cmp)`. -/
def sortBy (cmp : α → α → Ordering) (l : List α) : List α := l.insertionSort fun a b ↦ (cmp a b).isLE = true

/-- Comparing by a part of the members. -/
theorem transCmp_on (cmp : β → β → Ordering) [Std.TransCmp cmp] (f : α → β) :
    Std.TransCmp fun a b => cmp (f a) (f b) where
  eq_swap {_ _} := Std.OrientedCmp.eq_swap
  isLE_trans {_ _ _} := Std.TransCmp.isLE_trans

theorem eq_of_map_eq {f : α → β} {l l' : List α} (h : l.map f = l'.map f)
    (hinj : ∀ a ∈ l, ∀ b ∈ l', f a = f b → a = b) : l = l' := by
  induction l generalizing l' with
  | nil => exact (List.map_eq_nil_iff.mp h.symm).symm
  | cons a l ih =>
    cases l' with
    | nil => cases h
    | cons b l' =>
      obtain ⟨hab, hl⟩ := List.cons.inj h
      rw [hinj a List.mem_cons_self b List.mem_cons_self hab, ih hl fun c hc d hd =>
        hinj c (List.mem_cons_of_mem _ hc) d (List.mem_cons_of_mem _ hd)]

section Comparator

variable {cmp : α → α → Ordering}

/-- A member that no other comes after is sorted last. -/
theorem sortBy_append_last {a : α} {l : List α} (h : ∀ b ∈ l, (cmp b a).isLE = true) :
    sortBy cmp (l ++ [a]) = sortBy cmp l ++ [a] := by
  have hinsert {b : α} (hb : (cmp b a).isLE = true) (s : List α) :
      (s ++ [a]).orderedInsert (fun a b => (cmp a b).isLE = true) b =
        s.orderedInsert (fun a b => (cmp a b).isLE = true) b ++ [a] := by
    induction s with
    | nil => simp [hb]
    | cons c s ih =>
      rw [List.cons_append, List.orderedInsert, List.orderedInsert, ih]
      split <;> rfl
  unfold sortBy
  induction l with
  | nil => rfl
  | cons b l ih =>
    rw [List.cons_append, List.insertionSort_cons, List.insertionSort_cons, ih fun c hc => h c (List.mem_cons_of_mem _ hc)]
    exact hinsert (h b List.mem_cons_self) _

theorem sortBy_perm (l : List α) : (sortBy cmp l).Perm l := List.perm_insertionSort _ l

theorem mem_sortBy {c : α → α → Ordering} {a : α} {l : List α} : a ∈ sortBy c l ↔ a ∈ l := (sortBy_perm l).mem_iff

variable [Std.TransCmp cmp]

theorem isLE_total (a b : α) : (cmp a b).isLE = true ∨ (cmp b a).isLE = true := by
  cases h : cmp a b with
  | lt => exact .inl rfl
  | eq => exact .inl rfl
  | gt =>
    have hswap : cmp b a = (cmp a b).swap := Std.OrientedCmp.eq_swap
    rw [hswap, h]
    exact .inr rfl

theorem pairwise_sortBy (cmp : α → α → Ordering) [Std.TransCmp cmp] (l : List α) : (sortBy cmp l).Pairwise fun a b => (cmp a b).isLE = true := by
  have htotal : Std.Total fun a b => (cmp a b).isLE = true := ⟨isLE_total⟩
  have htrans : IsTrans α fun a b => (cmp a b).isLE = true := ⟨fun a b c => Std.TransCmp.isLE_trans⟩
  exact List.pairwise_insertionSort _ l

theorem squeeze_sortBy_congr [DecidableEq α] {l l' : List α} (hmem : ∀ a, a ∈ l ↔ a ∈ l')
    (heq : ∀ a ∈ l, ∀ b ∈ l, cmp a b = .eq → a = b) : squeeze (sortBy cmp l) = squeeze (sortBy cmp l') :=
  squeeze_congr (pairwise_sortBy cmp l) (pairwise_sortBy cmp l')
    (fun a ha b hb hab hba =>
      heq a (mem_sortBy.mp ha) b (mem_sortBy.mp hb) (Std.OrientedCmp.isLE_antisymm hab hba))
    fun a => by rw [mem_sortBy, mem_sortBy, hmem]

/-- A comparator that tells the members apart sorts every order of them to one list. -/
theorem sortBy_congr {l l' : List α} (hperm : l.Perm l') (heq : ∀ a ∈ l, ∀ b ∈ l, cmp a b = .eq → a = b) :
    sortBy cmp l = sortBy cmp l' := by
  refine (((sortBy_perm l).trans hperm).trans (sortBy_perm l').symm).eq_of_pairwise
    (fun a b ha hb hab hba => ?_) (pairwise_sortBy cmp l) (pairwise_sortBy cmp l')
  exact heq a (mem_sortBy.mp ha) b (hperm.mem_iff.mpr (mem_sortBy.mp hb)) (Std.OrientedCmp.isLE_antisymm hab hba)

omit [Std.TransCmp cmp] in
/-- Sorting by a part of the members sorts these parts. -/
theorem sortBy_filterMap {cmp' : β → β → Ordering} {f : α → Option β} {l : List α} (hsome : ∀ a ∈ l, ∃ b, f a = some b)
    (hcmp : ∀ a ∈ l, ∀ b ∈ l, ∀ a' b', f a = some a' → f b = some b' → cmp' a' b' = cmp a b) : sortBy cmp' (l.filterMap
    f) = (sortBy cmp l).filterMap f := by
  have hinsert : ∀ (a : α) (a' : β) (l : List α), f a = some a' → (∀ b ∈ l, ∃ b', f b = some b') →
      (∀ b ∈ l, ∀ b', f b = some b' → cmp' a' b' = cmp a b) →
      (l.filterMap f).orderedInsert (fun a b => (cmp' a b).isLE = true) a' =
        (l.orderedInsert (fun a b => (cmp a b).isLE = true) a).filterMap f := by
    intro a a' l ha hsome hcmp
    induction l with
    | nil => simp [ha]
    | cons b l ih =>
      obtain ⟨b', hb⟩ := hsome b List.mem_cons_self
      have ih' := ih (fun c hc => hsome c (List.mem_cons_of_mem _ hc)) fun c hc => hcmp c (List.mem_cons_of_mem _ hc)
      rw [List.filterMap_cons_some hb]
      have heq := hcmp b List.mem_cons_self b' hb
      simp only [List.orderedInsert]
      by_cases hle : (cmp a b).isLE = true
      · rw [if_pos hle, if_pos (by rw [heq]; exact hle), List.filterMap_cons_some ha, List.filterMap_cons_some hb]
      · rw [if_neg hle, if_neg (by rw [heq]; exact hle), List.filterMap_cons_some hb, ih']
  induction l with
  | nil => rfl
  | cons a l ih =>
    obtain ⟨a', ha⟩ := hsome a List.mem_cons_self
    have ih' := ih (fun b hb => hsome b (List.mem_cons_of_mem _ hb)) fun b hb c hc =>
      hcmp b (List.mem_cons_of_mem _ hb) c (List.mem_cons_of_mem _ hc)
    unfold sortBy at ih' ⊢
    rw [List.filterMap_cons_some ha, List.insertionSort_cons, List.insertionSort_cons, ih']
    refine hinsert a a' _ ha (fun b hb => hsome b ?_) fun b hb b' hb' => hcmp a List.mem_cons_self b ?_ a' b' ha hb'
    · exact List.mem_cons_of_mem _ ((List.mem_insertionSort _).mp hb)
    · exact List.mem_cons_of_mem _ ((List.mem_insertionSort _).mp hb)

/-! ## Members that the comparator does not tell apart -/

omit [Std.TransCmp cmp] in
theorem pair_sublist_cons {a b c : α} {l : List α} : [a, b].Sublist (c :: l) ↔ [a, b].Sublist l ∨ a = c ∧ b ∈ l := by
  constructor
  · intro h
    cases h with
    | cons _ h => exact .inl h
    | cons_cons _ h => exact .inr ⟨rfl, List.singleton_sublist.mp h⟩
  · rintro (h | ⟨rfl, h⟩)
    · exact h.cons c
    · exact (List.singleton_sublist.mpr h).cons_cons a

omit [Std.TransCmp cmp] in
theorem pair_sublist_total {a b : α} {l : List α} (ha : a ∈ l) (hb : b ∈ l) (hne : a ≠ b) :
    [a, b].Sublist l ∨ [b, a].Sublist l := by
  induction l with
  | nil => cases ha
  | cons c l ih =>
    rw [pair_sublist_cons, pair_sublist_cons]
    cases List.mem_cons.mp ha with
    | inl hac =>
      cases List.mem_cons.mp hb with
      | inl hbc => exact absurd (hac.trans hbc.symm) hne
      | inr hbl => exact .inl (.inr ⟨hac, hbl⟩)
    | inr hal =>
      cases List.mem_cons.mp hb with
      | inl hbc => exact .inr (.inr ⟨hbc, hal⟩)
      | inr hbl => exact (ih hal hbl).imp .inl .inl

omit [Std.TransCmp cmp] in
theorem pair_sublist_antisymm {a b : α} {l : List α} (hnodup : l.Nodup) (hab : [a, b].Sublist l)
    (hba : [b, a].Sublist l) : False := by
  induction l with
  | nil => cases hab
  | cons c l ih =>
    obtain ⟨hc, hl⟩ := List.nodup_cons.mp hnodup
    rw [pair_sublist_cons] at hab hba
    rcases hab with hab | ⟨rfl, hb⟩
    · rcases hba with hba | ⟨rfl, -⟩
      · exact ih hl hab hba
      · exact hc (hab.subset (List.mem_cons_of_mem _ List.mem_cons_self))
    · rcases hba with hba | ⟨rfl, -⟩
      · exact hc (hba.subset (List.mem_cons_of_mem _ List.mem_cons_self))
      · exact hc hb

/-- Two members that the comparator takes for equal stand in the same order in both lists. -/
def TiesAgree (cmp : α → α → Ordering) (l l' : List α) : Prop :=
  ∀ a b, a ≠ b → cmp a b = .eq → ([a, b].Sublist l ↔ [a, b].Sublist l')

omit [Std.TransCmp cmp] in
theorem TiesAgree.filter {l l' : List α} (h : TiesAgree cmp l l') (p : α → Bool) :
    TiesAgree cmp (l.filter p) (l'.filter p) := by
  have hiff : ∀ (a b : α) (l : List α), [a, b].Sublist (l.filter p) ↔
      [a, b].Sublist l ∧ p a = true ∧ p b = true := by
    intro a b l
    constructor
    · intro hsub
      exact ⟨hsub.trans List.filter_sublist, (List.mem_filter.mp (hsub.subset List.mem_cons_self)).2,
        (List.mem_filter.mp (hsub.subset (List.mem_cons_of_mem _ List.mem_cons_self))).2⟩
    · rintro ⟨hsub, ha, hb⟩
      have hpair := hsub.filter p
      rwa [List.filter_cons_of_pos ha, List.filter_cons_of_pos hb] at hpair
  intro a b hne htie
  rw [hiff, hiff, h a b hne htie]

theorem pair_sublist_sortBy {a b : α} {l : List α} (hab : (cmp a b).isLE = true) (h : [a, b].Sublist l) :
    [a, b].Sublist (sortBy cmp l) := by
  have htotal : Std.Total fun a b => (cmp a b).isLE = true := ⟨fun a b => isLE_total a b⟩
  have htrans : IsTrans α fun a b => (cmp a b).isLE = true := ⟨fun a b c => Std.TransCmp.isLE_trans⟩
  exact List.pair_sublist_insertionSort hab h

theorem sortBy_eq_iff {l l' : List α} (hperm : l.Perm l') (hnodup : l.Nodup) :
    sortBy cmp l = sortBy cmp l' ↔ TiesAgree cmp l l' := by
  have hnodup' := hperm.nodup_iff.mp hnodup
  have hsorted : (sortBy cmp l).Nodup := (sortBy_perm l).nodup_iff.mpr hnodup
  have hsorted' : (sortBy cmp l').Nodup := (sortBy_perm l').nodup_iff.mpr hnodup'
  -- a pair that a list has is not turned round in its sorted form when it is a tie
  have hforth : ∀ (l₁ l₂ : List α), l₁.Perm l₂ → (sortBy cmp l₂).Nodup → sortBy cmp l₁ = sortBy cmp l₂ →
      ∀ a b, a ≠ b → cmp a b = .eq → [a, b].Sublist l₁ → [a, b].Sublist l₂ := by
    intro l₁ l₂ hp hn heq a b hne htie hsub
    have ha := hp.mem_iff.mp (hsub.subset List.mem_cons_self)
    have hb := hp.mem_iff.mp (hsub.subset (List.mem_cons_of_mem _ List.mem_cons_self))
    refine (pair_sublist_total ha hb hne).resolve_right fun hback => ?_
    have hforward := pair_sublist_sortBy (Ordering.isLE_of_eq_eq htie) hsub
    rw [heq] at hforward
    exact pair_sublist_antisymm hn hforward
      (pair_sublist_sortBy (Ordering.isLE_of_eq_eq (Std.OrientedCmp.eq_symm htie)) hback)
  constructor
  · intro heq a b hne htie
    exact ⟨hforth l l' hperm hsorted' heq a b hne htie, hforth l' l hperm.symm hsorted heq.symm a b hne htie⟩
  · intro hties
    refine (((sortBy_perm l).trans hperm).trans (sortBy_perm l').symm).eq_of_pairwise
      (fun a b _ _ hab hba => ?_) (List.pairwise_iff_forall_sublist.mpr fun {a b} hsub => ?_)
      (List.pairwise_iff_forall_sublist.mpr fun {a b} hsub => hsub)
    · exact absurd hba (pair_sublist_antisymm hsorted' hab)
    · have hle := List.pairwise_iff_forall_sublist.mp (pairwise_sortBy cmp l) hsub
      have hne : a ≠ b := List.pairwise_iff_forall_sublist.mp hsorted hsub
      have ha := mem_sortBy.mp (hsub.subset List.mem_cons_self)
      have hb := mem_sortBy.mp (hsub.subset (List.mem_cons_of_mem _ List.mem_cons_self))
      cases htie : cmp a b with
      | gt =>
        rw [htie] at hle
        cases hle
      | eq =>
        have hfirst := (pair_sublist_total ha hb hne).resolve_right fun hback =>
          pair_sublist_antisymm hsorted hsub
            (pair_sublist_sortBy (Ordering.isLE_of_eq_eq (Std.OrientedCmp.eq_symm htie)) hback)
        exact pair_sublist_sortBy hle ((hties a b hne htie).mp hfirst)
      | lt =>
        have ha' := (mem_sortBy (c := cmp)).mpr (hperm.mem_iff.mp ha)
        have hb' := (mem_sortBy (c := cmp)).mpr (hperm.mem_iff.mp hb)
        refine (pair_sublist_total ha' hb' hne).resolve_right fun hback => ?_
        exact Std.OrientedCmp.not_isLE_of_lt htie
          (List.pairwise_iff_forall_sublist.mp (pairwise_sortBy cmp l') hback)

end Comparator

end Collections
