import RabiRoute.Collections.InsertionMap
import RabiRoute.Graphs.Loop

/-!
# Marking until nothing changes

A `while (changed)` that goes through the items and marks those that the marks made so far condemn.
The marks are the least set that is closed under the verdict.
-/

namespace Graphs

open Collections

variable {ι κ δ : Type} [DecidableEq κ]

section

variable (items : List ι) (key : ι → κ) (verdict : (κ → Bool) → ι → Option δ)

/-- One item of a pass; the flag says that something changed. -/
def markItem (s : InsertionMap κ δ × Bool) (item : ι) : InsertionMap κ δ × Bool :=
  if s.1.has (key item) then s
  else match verdict s.1.has item with
    | none => s
    | some data => (s.1.set (key item) data, true)

def markPass (s : InsertionMap κ δ × Bool) : InsertionMap κ δ × Bool :=
  items.foldl (markItem key verdict) s

def markStep (marks : InsertionMap κ δ) : Option (InsertionMap κ δ) :=
  let s := markPass items key verdict (marks, false)
  if s.2 then some s.1 else none

/-- The number of items without a mark. -/
def unmarked (marks : InsertionMap κ δ) : Nat :=
  (items.filter fun item ↦ !marks.has (key item)).length

end

section

variable {items : List ι} {key : ι → κ} {verdict : (κ → Bool) → ι → Option δ}
  {marks : InsertionMap κ δ} {item : ι}

theorem unmarked_set_lt {data : δ} (hitem : item ∈ items) (hnew : marks.has (key item) = false) :
    unmarked items key (marks.set (key item) data) < unmarked items key marks := by
  have hfilter : (items.filter fun i => !(marks.set (key item) data).has (key i)) =
      (items.filter fun i => !marks.has (key i)).filter fun i => decide (key i ≠ key item) := by
    rw [List.filter_filter]
    refine List.filter_congr fun i _ => ?_
    rw [InsertionMap.has_set]
    by_cases h : key i = key item <;> simp [h]
  unfold unmarked
  rw [hfilter, List.length_filter_lt_length_iff_exists]
  exact ⟨item, List.mem_filter.mpr ⟨hitem, by simp [hnew]⟩, by simp⟩

variable (key verdict) in
/-- What one item can do to the marks. -/
theorem markItem_cases (s : InsertionMap κ δ × Bool) (item : ι) :
    (markItem key verdict s item = s ∧ (s.1.has (key item) = false → verdict s.1.has item = none)) ∨
      (s.1.has (key item) = false ∧ ∃ data, verdict s.1.has item = some data ∧
        markItem key verdict s item = (s.1.set (key item) data, true)) := by
  unfold markItem
  split
  case isTrue hmarked => exact .inl ⟨rfl, fun h => absurd hmarked (by simp [h])⟩
  case isFalse hnew =>
    split
    case h_1 hnone => exact .inl ⟨rfl, fun _ => hnone⟩
    case h_2 data hdata => exact .inr ⟨by simpa using hnew, data, hdata, rfl⟩

theorem markPass_flag {s : InsertionMap κ δ × Bool} (h : s.2 = true) : (markPass items key verdict s).2 = true := by
  induction items generalizing s with
  | nil => exact h
  | cons item rest ih =>
    rcases markItem_cases key verdict s item with
      ⟨hsame, -⟩ | ⟨-, data, -, hset⟩
    · refine ih ?_
      rw [hsame]
      exact h
    · exact ih (by rw [hset])

/-- A pass without a change has looked at each item. -/
theorem markPass_unchanged {s : InsertionMap κ δ × Bool} (h : (markPass items key verdict s).2 = false) : ∀ item ∈
    items, s.1.has (key item) = false → verdict s.1.has item = none := by
  induction items generalizing s with
  | nil => exact fun _ hmem => absurd hmem List.not_mem_nil
  | cons item rest ih =>
    rcases markItem_cases key verdict s item with
      ⟨hsame, hnone⟩ | ⟨-, data, -, hset⟩
    · intro i hi
      have hrest := ih (s := markItem key verdict s item) h
      rw [hsame] at hrest
      rcases List.mem_cons.mp hi with rfl | hi
      · exact hnone
      · exact hrest i hi
    · have hflag : (markPass rest key verdict (markItem key verdict s item)).2 = true :=
        markPass_flag (by rw [hset])
      exact absurd (h.symm.trans hflag) (by decide)

theorem markPass_unmarked {s : InsertionMap κ δ × Bool} {rest : List ι} (hrest : rest ⊆ items) :
    unmarked items key (markPass rest key verdict s).1 ≤ unmarked items key s.1 ∧
      ((markPass rest key verdict s).2 = true → s.2 = true ∨
        unmarked items key (markPass rest key verdict s).1 < unmarked items key s.1) := by
  induction rest generalizing s with
  | nil => exact ⟨Nat.le_refl _, .inl⟩
  | cons item rest ih =>
    obtain ⟨hitem, hrest⟩ := List.cons_subset.mp hrest
    have hlater := ih (s := markItem key verdict s item) hrest
    show unmarked items key (markPass rest key verdict (markItem key verdict s item)).1 ≤ _ ∧
      ((markPass rest key verdict (markItem key verdict s item)).2 = true → _ ∨
        unmarked items key (markPass rest key verdict (markItem key verdict s item)).1 < _)
    rcases markItem_cases key verdict s item with
      ⟨hsame, -⟩ | ⟨hnew, data, -, hset⟩
    · rw [hsame] at hlater ⊢
      exact hlater
    · have hless : unmarked items key (markItem key verdict s item).1 < unmarked items key s.1 := by
        rw [hset]
        exact unmarked_set_lt hitem hnew
      exact ⟨by omega, fun _ => .inr (by omega)⟩

theorem markStep_lt {marks' : InsertionMap κ δ} (h : markStep items key verdict marks = some marks') :
    unmarked items key marks' < unmarked items key marks := by
  unfold markStep at h
  dsimp only at h
  split at h
  case isFalse => cases h
  case isTrue hflag =>
    obtain rfl := Option.some.inj h
    exact ((markPass_unmarked (List.Subset.refl items)).2 hflag).resolve_left (by simp)

/-- Marks that stay within a set that is closed under the verdict. -/
theorem markPass_least {P : κ → Prop} {s : InsertionMap κ δ × Bool}
    (hclosed : ∀ item ∈ items, ∀ marked : κ → Bool, (∀ k, marked k = true → P k) →
      verdict marked item ≠ none → P (key item))
    (hs : ∀ k, s.1.has k = true → P k) : ∀ k, (markPass items key verdict s).1.has k = true → P k := by
  induction items generalizing s with
  | nil => exact hs
  | cons item rest ih =>
    refine ih (fun i hi => hclosed i (List.mem_cons_of_mem item hi)) fun k hk => ?_
    rcases markItem_cases key verdict s item with
      ⟨hsame, -⟩ | ⟨-, data, hdata, hset⟩
    · rw [hsame] at hk
      exact hs k hk
    · rw [hset, InsertionMap.has_set] at hk
      by_cases h : k = key item
      · exact h ▸ hclosed item List.mem_cons_self s.1.has hs (by simp [hdata])
      · exact hs k (by simpa [h] using hk)

end

/-- The marks when nothing changes any more. -/
def saturate (items : List ι) (key : ι → κ) (verdict : (κ → Bool) → ι → Option δ) :
    InsertionMap κ δ :=
  whileSome (markStep items key verdict) (unmarked items key) (fun _ _ ↦ markStep_lt) .empty

section

variable {items : List ι} {key : ι → κ} {verdict : (κ → Bool) → ι → Option δ}

/-- The verdict condemns no item that has no mark. -/
theorem saturate_closed {item : ι} (hitem : item ∈ items) (hnew : (saturate items key verdict).has (key item) = false) :
    verdict (saturate items key verdict).has item = none := by
  have hdone : markStep items key verdict (saturate items key verdict) = none := whileSome_done
  unfold markStep at hdone
  dsimp only at hdone
  split at hdone
  case isTrue => cases hdone
  case isFalse hflag => exact markPass_unchanged (by simpa using hflag) item hitem hnew

/-- Only what the verdict forces is marked. -/
theorem saturate_least {P : κ → Prop}
    (hclosed : ∀ item ∈ items, ∀ marked : κ → Bool, (∀ k, marked k = true → P k) →
      verdict marked item ≠ none → P (key item)) {k : κ}
    (hk : (saturate items key verdict).has k = true) : P k := by
  have hspec := whileSome_spec (μ := unmarked items key) (s := .empty)
    (P := fun marks => ∀ k, marks.has k = true → P k)
    (fun marks marks' (h : markStep items key verdict marks = some marks') => markStep_lt h) ?_ ?_
  · exact hspec.1 k hk
  · intro marks marks' hmarks hstep
    unfold markStep at hstep
    dsimp only at hstep
    split at hstep
    case isFalse => cases hstep
    case isTrue =>
      obtain rfl := Option.some.inj hstep
      exact markPass_least hclosed hmarks
  · intro k hempty
    cases hempty

/-- A verdict that condemns less marks less, where it condemns more when more is marked. -/
theorem saturate_mono {ι' δ' : Type} {items' : List ι'} {key' : ι' → κ}
    {verdict' : (κ → Bool) → ι' → Option δ'}
    (hless : ∀ item ∈ items, ∀ marked marked' : κ → Bool, (∀ k, marked k = true → marked' k = true) →
      verdict marked item ≠ none → ∃ item' ∈ items', key' item' = key item ∧ verdict' marked' item' ≠ none)
    {k : κ} (hk : (saturate items key verdict).has k = true) :
    (saturate items' key' verdict').has k = true := by
  refine saturate_least (P := fun k => (saturate items' key' verdict').has k = true) ?_ hk
  intro item hitem marked hmarked hcondemned
  obtain ⟨item', hitem', hkey, hcondemned'⟩ := hless item hitem marked _ hmarked hcondemned
  rw [← hkey]
  by_contra hnew
  exact hcondemned' (saturate_closed hitem' (by simpa using hnew))

end

/-! ## The order of the marks -/

/-- Items that are marked one after the other, each with what the marks before it force. -/
inductive Marking (items : List ι) (key : ι → κ) (verdict : (κ → Bool) → ι → Option δ) : List (ι × δ) → Prop
  | nil : Marking items key verdict []
  | snoc {steps : List (ι × δ)} {item : ι} {data : δ} (before : Marking items key verdict steps)
      (member : item ∈ items) (new : key item ∉ steps.map fun step ↦ key step.1)
      (forced : verdict (fun k ↦ decide (k ∈ steps.map fun step ↦ key step.1)) item = some data) :
      Marking items key verdict (steps ++ [(item, data)])

section

variable {items : List ι} {key : ι → κ} {verdict : (κ → Bool) → ι → Option δ} {steps : List (ι × δ)}
  {item : ι} {data : δ}

theorem Marking.last (h : Marking items key verdict (steps ++ [(item, data)])) :
    Marking items key verdict steps ∧ item ∈ items ∧ (key item ∉ steps.map fun step => key step.1) ∧
      verdict (fun k => decide (k ∈ steps.map fun step => key step.1)) item = some data := by
  generalize hall : steps ++ [(item, data)] = all at h
  cases h with
  | nil => exact absurd hall (List.append_ne_nil_of_right_ne_nil steps (List.cons_ne_nil _ _))
  | snoc before member new forced =>
    obtain ⟨rfl, hlast⟩ := List.append_inj' hall rfl
    obtain ⟨rfl, rfl⟩ := Prod.mk.inj (List.singleton_inj.mp hlast)
    exact ⟨before, member, new, forced⟩

theorem Marking.left {more : List (ι × δ)} (h : Marking items key verdict (steps ++ more)) :
    Marking items key verdict steps := by
  induction more using List.reverseRecOn with
  | nil => rwa [List.append_nil] at h
  | append_singleton more step ih =>
    rw [← List.append_assoc] at h
    exact ih h.last.1

theorem Marking.members (h : Marking items key verdict steps) :
    (∀ step ∈ steps, step.1 ∈ items) ∧ (steps.map fun step => key step.1).Nodup := by
  induction h with
  | nil => exact ⟨fun _ h => absurd h List.not_mem_nil, List.nodup_nil⟩
  | snoc before member new forced ih =>
    constructor
    · intro step hstep
      rcases List.mem_append.mp hstep with hin | hlast
      · exact ih.1 step hin
      · rw [List.mem_singleton.mp hlast]
        exact member
    · rw [List.map_append]
      refine List.nodup_append.mpr ⟨ih.2, List.nodup_singleton _, fun k hk j hj => ?_⟩
      rintro rfl
      obtain rfl := List.mem_singleton.mp hj
      exact new hk

/-- The marks of a marking. -/
def marksOf (key : ι → κ) (steps : List (ι × δ)) : List (κ × δ) := steps.map fun step ↦ (key step.1, step.2)

omit [DecidableEq κ] in
theorem keys_of_entries {marks : InsertionMap κ δ} (h : marks.entries = marksOf key steps) :
    marks.keys = steps.map fun step => key step.1 := by
  unfold InsertionMap.keys marksOf at *
  rw [h, List.map_map]
  rfl

theorem has_of_entries {marks : InsertionMap κ δ} (h : marks.entries = marksOf key steps) :
    marks.has = fun k => decide (k ∈ steps.map fun step => key step.1) := by
  funext k
  rw [Bool.eq_iff_iff, decide_eq_true_eq, InsertionMap.has_iff, keys_of_entries h]

theorem entries_set_of_entries {marks : InsertionMap κ δ} (h : marks.entries = marksOf key steps)
    (hnew : key item ∉ steps.map fun step => key step.1) :
    (marks.set (key item) data).entries = marksOf key (steps ++ [(item, data)]) := by
  have hnone : marks.get? (key item) = none := by
    rw [← InsertionMap.has_eq_false, has_of_entries h, decide_eq_false_iff_not]
    exact hnew
  rw [InsertionMap.entries_set_new hnone, h]
  unfold marksOf
  rw [List.map_append]
  rfl

/-- Each pass marks in this way. -/
theorem markPass_marking {s : InsertionMap κ δ × Bool} {rest : List ι} (hrest : rest ⊆ items)
    (h : ∃ steps, Marking items key verdict steps ∧ s.1.entries = marksOf key steps) :
    ∃ steps, Marking items key verdict steps ∧ (markPass rest key verdict s).1.entries = marksOf key steps := by
  induction rest generalizing s with
  | nil => exact h
  | cons item rest ih =>
    obtain ⟨hitem, hrest⟩ := List.cons_subset.mp hrest
    apply ih hrest
    rcases markItem_cases key verdict s item with ⟨hsame, -⟩ | ⟨hnew, data, hdata, hset⟩
    · rwa [hsame]
    · obtain ⟨steps, hsteps, hentries⟩ := h
      have hforced := hdata
      rw [has_of_entries hentries] at hnew hforced
      have hkey := of_decide_eq_false hnew
      refine ⟨steps ++ [(item, data)], hsteps.snoc hitem hkey hforced, ?_⟩
      rw [hset]
      exact entries_set_of_entries hentries hkey

theorem saturate_marking (items : List ι) (key : ι → κ) (verdict : (κ → Bool) → ι → Option δ) :
    ∃ steps, Marking items key verdict steps ∧ (saturate items key verdict).entries = marksOf key steps := by
  have hspec := whileSome_spec (μ := unmarked items key) (s := .empty)
    (P := fun marks => ∃ steps, Marking items key verdict steps ∧ marks.entries = marksOf key steps)
    (fun marks marks' (h : markStep items key verdict marks = some marks') => markStep_lt h) ?_ ⟨[], .nil, rfl⟩
  · exact hspec.1
  · intro marks marks' hmarks hstep
    unfold markStep at hstep
    dsimp only at hstep
    split at hstep
    case isFalse => cases hstep
    case isTrue =>
      obtain rfl := Option.some.inj hstep
      exact markPass_marking (List.Subset.refl items) hmarks

/-- What a mark holds was forced by marks that are all there in the end. -/
theorem saturate_forced {k : κ} (h : (saturate items key verdict).get? k = some data) :
    ∃ item ∈ items, ∃ marked : κ → Bool, key item = k ∧
      (∀ j, marked j = true → (saturate items key verdict).has j = true) ∧ verdict marked item = some data := by
  obtain ⟨steps, hsteps, hentries⟩ := saturate_marking items key verdict
  rw [InsertionMap.get?_eq_some, hentries] at h
  obtain ⟨⟨item, data'⟩, hmem, heq⟩ := List.mem_map.mp h
  obtain ⟨rfl, rfl⟩ := Prod.mk.inj heq
  obtain ⟨before, after, rfl⟩ := List.append_of_mem hmem
  rw [List.append_cons] at hsteps
  obtain ⟨-, hitem, -, hforced⟩ := (hsteps.left).last
  refine ⟨item, hitem, _, rfl, fun j hj => ?_, hforced⟩
  rw [has_of_entries hentries, decide_eq_true_eq, List.map_append]
  exact List.mem_append_left _ (of_decide_eq_true hj)

theorem markPass_keeps {s : InsertionMap κ δ × Bool} {k : κ} (h : s.1.get? k = some data) :
    (markPass items key verdict s).1.get? k = some data := by
  induction items generalizing s with
  | nil => exact h
  | cons item rest ih =>
    apply ih
    rcases markItem_cases key verdict s item with ⟨hsame, -⟩ | ⟨hnew, data', -, hset⟩
    · rwa [hsame]
    · rw [hset, InsertionMap.get?_set_of_ne]
      · exact h
      · rintro rfl
        rw [InsertionMap.has_eq_false, h] at hnew
        cases hnew

theorem markPass_same {s : InsertionMap κ δ × Bool} (h : (markPass items key verdict s).2 = false) :
    markPass items key verdict s = s := by
  induction items generalizing s with
  | nil => rfl
  | cons item rest ih =>
    have hlater : (markPass rest key verdict (markItem key verdict s item)).2 = false := h
    rcases markItem_cases key verdict s item with ⟨hsame, -⟩ | ⟨-, data, -, hset⟩
    · rw [hsame] at hlater
      show markPass rest key verdict (markItem key verdict s item) = s
      rw [hsame]
      exact ih hlater
    · exact absurd (hlater.symm.trans (markPass_flag (by rw [hset]))) (by decide)

/-- What the first pass marks stays. -/
theorem saturate_firstPass {k : κ} (h : (markPass items key verdict (.empty, false)).1.get? k = some data) :
    (saturate items key verdict).get? k = some data := by
  have hspec := whileSome_spec (μ := unmarked items key) (s := .empty)
    (P := fun marks => marks = .empty ∨ marks.get? k = some data)
    (fun marks marks' (h : markStep items key verdict marks = some marks') => markStep_lt h) ?_ (.inl rfl)
  · obtain ⟨hmarks, hdone⟩ := hspec
    refine hmarks.resolve_left fun hempty => ?_
    rw [hempty] at hdone
    unfold markStep at hdone
    dsimp only at hdone
    split at hdone
    case isTrue => cases hdone
    case isFalse hflag =>
      rw [markPass_same (by simpa using hflag)] at h
      cases h
  · intro marks marks' hmarks hstep
    unfold markStep at hstep
    dsimp only at hstep
    split at hstep
    case isFalse => cases hstep
    case isTrue =>
      obtain rfl := Option.some.inj hstep
      refine .inr ?_
      rcases hmarks with rfl | hmarks
      · exact h
      · exact markPass_keeps hmarks

theorem markPass_append (items rest : List ι) (s : InsertionMap κ δ × Bool) :
    markPass (items ++ rest) key verdict s = markPass rest key verdict (markPass items key verdict s) :=
  List.foldl_append

theorem markItem_new {s : InsertionMap κ δ × Bool} (hentries : s.1.entries = marksOf key steps) (hnew : key item ∉
    steps.map fun step => key step.1) (hforced : verdict (fun k => decide (k ∈ steps.map fun step => key step.1)) item =
    some data) : markItem key verdict s item = (s.1.set (key item) data, true) := by
  rw [← has_of_entries hentries] at hforced
  unfold markItem
  rw [if_neg, hforced]
  rw [has_of_entries hentries, decide_eq_true_eq]
  exact hnew

/-- A pass over the items in the order of a marking marks them all. -/
theorem Marking.replay (h : Marking items key verdict steps) :
    (markPass (steps.map Prod.fst) key verdict (.empty, false)).1.entries = marksOf key steps := by
  induction h with
  | nil => rfl
  | snoc before member new forced ih =>
    rw [List.map_append, markPass_append]
    show (markItem key verdict _ _).1.entries = _
    rw [markItem_new ih new forced]
    exact entries_set_of_entries ih new

/-- An item that comes right after a marking keeps what the marking forces. -/
theorem Marking.next (h : Marking items key verdict steps) (hnew : key item ∉ steps.map fun step => key step.1)
    (hforced : verdict (fun k => decide (k ∈ steps.map fun step => key step.1)) item = some data) (rest : List ι) :
    (saturate (steps.map Prod.fst ++ item :: rest) key verdict).get? (key item) = some data := by
  apply saturate_firstPass
  rw [List.append_cons, markPass_append, markPass_append]
  apply markPass_keeps
  show (markItem key verdict _ item).1.get? (key item) = some data
  rw [markItem_new h.replay hnew hforced]
  exact InsertionMap.get?_set_self

end

end Graphs
