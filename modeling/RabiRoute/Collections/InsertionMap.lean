import Mathlib.Algebra.BigOperators.Group.Finset.Piecewise
import Mathlib.Algebra.Order.BigOperators.Group.Finset
import Mathlib.Algebra.Order.Field.Rat
import Mathlib.Data.List.Sort
import Mathlib.Data.List.TakeWhile
import Mathlib.Tactic.Common
import RabiRoute.Collections.Sorting
import RabiRoute.Shared.Fallible

/-!
# Maps in insertion order

A new key goes to the end, a key that is set again stays where it is.  All lemmas go through
`get?_eq_some`: a lookup is membership, since no key occurs twice.
-/

namespace Collections

structure InsertionMap (κ α : Type) where
  entries : List (κ × α)
  nodup : (entries.map Prod.fst).Nodup

namespace InsertionMap

variable {κ α : Type}

def empty : InsertionMap κ α := ⟨[], List.nodup_nil⟩

def keys (m : InsertionMap κ α) : List κ := m.entries.map Prod.fst

def values (m : InsertionMap κ α) : List α := m.entries.map Prod.snd

theorem entry_unique {m : InsertionMap κ α} {k : κ} {a b : α} (ha : (k, a) ∈ m.entries)
    (hb : (k, b) ∈ m.entries) : a = b := by
  have hsame : (k, a) = (k, b) := List.inj_on_of_nodup_map m.nodup ha hb rfl
  exact (Prod.mk.inj hsame).2

variable [DecidableEq κ]

def get? (m : InsertionMap κ α) (k : κ) : Option α :=
  (m.entries.find? fun e ↦ decide (e.1 = k)).map Prod.snd

def has (m : InsertionMap κ α) (k : κ) : Bool := (m.get? k).isSome

def setEntries (k : κ) (a : α) (entries : List (κ × α)) : List (κ × α) :=
  if k ∈ entries.map Prod.fst then entries.map fun e ↦ if e.1 = k then (k, a) else e
  else entries ++ [(k, a)]

theorem setEntries_nodup {k : κ} {a : α} {entries : List (κ × α)}
    (h : (entries.map Prod.fst).Nodup) : ((setEntries k a entries).map Prod.fst).Nodup := by
  unfold setEntries
  split
  case isTrue =>
    have hkeys : (entries.map fun e => if e.1 = k then (k, a) else e).map Prod.fst =
        entries.map Prod.fst := by
      rw [List.map_map]
      refine List.map_congr_left fun e _ => ?_
      simp only [Function.comp_apply]
      split
      case isTrue he => exact he.symm
      case isFalse => rfl
    rwa [hkeys]
  case isFalse hk =>
    rw [List.map_append, List.nodup_append]
    refine ⟨h, List.nodup_singleton _, fun x hx y hy => ?_⟩
    simp only [List.map_cons, List.map_nil, List.mem_singleton] at hy
    rintro rfl
    exact hk (hy ▸ hx)

def set (m : InsertionMap κ α) (k : κ) (a : α) : InsertionMap κ α :=
  ⟨setEntries k a m.entries, setEntries_nodup m.nodup⟩

def erase (m : InsertionMap κ α) (k : κ) : InsertionMap κ α :=
  ⟨m.entries.filter fun e ↦ decide (e.1 ≠ k), m.nodup.sublist (List.filter_sublist.map _)⟩

/-- Keep the entries that meet the condition. -/
def keepIf (m : InsertionMap κ α) (p : κ → α → Bool) : InsertionMap κ α :=
  ⟨m.entries.filter fun e ↦ p e.1 e.2, m.nodup.sublist (List.filter_sublist.map _)⟩

/-- Change the values in place. -/
def mapValues {β : Type} (m : InsertionMap κ α) (f : α → β) : InsertionMap κ β :=
  ⟨m.entries.map fun e ↦ (e.1, f e.2), by simpa [Function.comp_def] using m.nodup⟩

/-- Set the entries in order. -/
def setAll (m : InsertionMap κ α) (es : List (κ × α)) : InsertionMap κ α :=
  es.foldl (fun m e ↦ m.set e.1 e.2) m

variable {m : InsertionMap κ α} {j k : κ} {a b : α}

theorem get?_eq_some : m.get? k = some a ↔ (k, a) ∈ m.entries := by
  unfold get?
  rw [Option.map_eq_some_iff]
  constructor
  · rintro ⟨⟨j, b⟩, hfind, rfl⟩
    have hj := List.find?_some hfind
    simp only [decide_eq_true_eq] at hj
    exact hj ▸ List.mem_of_find?_eq_some hfind
  · intro hmem
    cases hfind : m.entries.find? fun e => decide (e.1 = k) with
    | none => simpa using List.find?_eq_none.mp hfind (k, a) hmem
    | some e =>
      have hk := List.find?_some hfind
      simp only [decide_eq_true_eq] at hk
      have he : (k, e.2) ∈ m.entries := hk ▸ List.mem_of_find?_eq_some hfind
      exact ⟨e, rfl, entry_unique he hmem⟩

theorem get?_eq_none : m.get? k = none ↔ ∀ a, (k, a) ∉ m.entries := by
  rw [Option.eq_none_iff_forall_ne_some]
  exact forall_congr' fun a => not_congr get?_eq_some

theorem mem_set : (j, b) ∈ (m.set k a).entries ↔ (j = k ∧ b = a) ∨ (j ≠ k ∧ (j, b) ∈ m.entries) := by
  show (j, b) ∈ setEntries k a m.entries ↔ _
  unfold setEntries
  split
  case isTrue hk =>
    obtain ⟨e, he, hek⟩ := List.mem_map.mp hk
    rw [List.mem_map]
    constructor
    · rintro ⟨e', he', hsame⟩
      split at hsame
      · obtain ⟨rfl, rfl⟩ := Prod.mk.inj hsame
        exact .inl ⟨rfl, rfl⟩
      case isFalse hne =>
        rw [hsame] at hne he'
        exact .inr ⟨hne, he'⟩
    · rintro (⟨rfl, rfl⟩ | ⟨hne, hmem⟩)
      · exact ⟨e, he, if_pos hek⟩
      · exact ⟨(j, b), hmem, if_neg hne⟩
  case isFalse hk =>
    rw [List.mem_append, List.mem_singleton, Prod.mk.injEq, or_comm]
    refine or_congr_right ⟨fun hmem => ⟨?_, hmem⟩, fun h => h.2⟩
    rintro rfl
    exact hk (List.mem_map.mpr ⟨_, hmem, rfl⟩)

theorem mem_erase : (j, b) ∈ (m.erase k).entries ↔ j ≠ k ∧ (j, b) ∈ m.entries := by
  show (j, b) ∈ m.entries.filter _ ↔ _
  rw [List.mem_filter, decide_eq_true_eq, and_comm]

omit [DecidableEq κ] in
theorem mem_keepIf {p : κ → α → Bool} : (j, b) ∈ (m.keepIf p).entries ↔ (j, b) ∈ m.entries ∧ p j b = true :=
  List.mem_filter

theorem get?_keepIf {p : κ → α → Bool} : (m.keepIf p).get? j = (m.get? j).filter (p j) := by
  refine Option.ext fun b => ?_
  rw [get?_eq_some, mem_keepIf, Option.filter_eq_some_iff, get?_eq_some]

theorem get?_mapValues {β : Type} {f : α → β} : (m.mapValues f).get? j = (m.get? j).map f := by
  unfold get? mapValues
  rw [List.find?_map, Option.map_map, Option.map_map]
  rfl

omit [DecidableEq κ] in
@[simp] theorem entries_empty : (empty : InsertionMap κ α).entries = [] := rfl

@[simp] theorem get?_empty : (empty : InsertionMap κ α).get? k = none := rfl

theorem get?_set : (m.set k a).get? j = if j = k then some a else m.get? j := by
  refine Option.ext fun b => ?_
  rw [get?_eq_some, mem_set]
  split
  case isTrue hj =>
    simp only [hj, true_and, ne_eq, not_true, false_and, or_false, Option.some.injEq]
    exact eq_comm
  case isFalse hj => simp only [hj, false_and, false_or, ne_eq, not_false_eq_true, true_and, get?_eq_some]

@[simp] theorem get?_set_self : (m.set k a).get? k = some a := by
  rw [get?_set, if_pos rfl]

theorem get?_set_of_ne (h : j ≠ k) : (m.set k a).get? j = m.get? j := by
  rw [get?_set, if_neg h]

theorem entries_set_new (h : m.get? k = none) : (m.set k a).entries = m.entries ++ [(k, a)] := by
  show setEntries k a m.entries = _
  unfold setEntries
  rw [if_neg]
  intro hmem
  obtain ⟨e, he, rfl⟩ := List.mem_map.mp hmem
  exact get?_eq_none.mp h e.2 he

theorem keys_set : (m.set k a).keys = if k ∈ m.keys then m.keys else m.keys ++ [k] := by
  unfold keys set setEntries
  dsimp only
  split
  · rw [List.map_map]
    refine List.map_congr_left fun e _ => ?_
    simp only [Function.comp_apply]
    split
    · next he => exact he.symm
    · rfl
  · rw [List.map_append]
    rfl

theorem has_iff : m.has k = true ↔ k ∈ m.keys := by
  unfold has keys
  rw [Option.isSome_iff_exists]
  simp only [get?_eq_some, List.mem_map, Prod.exists, exists_and_right, exists_eq_right]

theorem has_eq_false : m.has k = false ↔ m.get? k = none := by
  unfold has
  rw [Option.isSome_eq_false_iff, Option.isNone_iff_eq_none]

omit [DecidableEq κ] in
theorem ext_entries {m m' : InsertionMap κ α} (h : m.entries = m'.entries) : m = m' := by
  cases m
  cases m'
  cases h
  rfl

/-- Setting new keys appends them. -/
theorem entries_foldl_set {ι : Type} {key : ι → κ} {value : ι → α} {l : List ι} {m : InsertionMap κ α}
    (hnew : ∀ x ∈ l, m.get? (key x) = none) (hl : (l.map key).Nodup) :
    (l.foldl (fun m x => m.set (key x) (value x)) m).entries =
      m.entries ++ l.map fun x => (key x, value x) := by
  induction l generalizing m with
  | nil => simp
  | cons x rest ih =>
    rw [List.map_cons, List.nodup_cons] at hl
    rw [List.foldl_cons, ih (fun y hy => ?_) hl.2, entries_set_new (hnew x List.mem_cons_self), List.append_assoc]
    · rfl
    · rw [get?_set_of_ne fun h => hl.1 (List.mem_map.mpr ⟨y, hy, h⟩)]
      exact hnew y (List.mem_cons_of_mem x hy)

/-- A fold that refuses to set a key again.  Its state may be more than the map. -/
theorem foldlM_set_ok {ε ι σ : Type} {view : σ → InsertionMap κ α} {put : σ → ι → σ} {add : σ → ι → Except ε σ}
    {P : ι → Prop} {key : ι → κ} {value : ι → α} (hview : Function.Injective view)
    (hput : ∀ s x, view (put s x) = (view s).set (key x) (value x))
    (hadd : ∀ s x s', add s x = .ok s' ↔ P x ∧ (view s).get? (key x) = none ∧ s' = put s x)
    {l : List ι} {s s' : σ} : l.foldlM add s = .ok s' ↔
      (∀ x ∈ l, P x ∧ (view s).get? (key x) = none) ∧ (l.map key).Nodup ∧
        (view s').entries = (view s).entries ++ l.map fun x => (key x, value x) := by
  induction l generalizing s with
  | nil =>
    rw [List.foldlM_nil, List.map_nil, List.map_nil, List.append_nil]
    constructor
    · intro h
      obtain rfl := Except.ok.inj h
      exact ⟨fun _ h => absurd h List.not_mem_nil, List.nodup_nil, rfl⟩
    · exact fun h => congrArg Except.ok (hview (ext_entries h.2.2)).symm
  | cons x rest ih =>
    rw [List.foldlM_cons, Fallible.bind_ok, List.map_cons, List.nodup_cons, List.forall_mem_cons]
    have happend (h : (view s).get? (key x) = none) : (view (put s x)).entries ++
        rest.map (fun y => (key y, value y)) =
          (view s).entries ++ (x :: rest).map fun y => (key y, value y) := by
      rw [hput, entries_set_new h, List.append_assoc]
      rfl
    constructor
    · rintro ⟨mid, hmid, hrest⟩
      obtain ⟨hx, hnew, rfl⟩ := (hadd s x mid).mp hmid
      obtain ⟨hfresh, hnodup, hentries⟩ := ih.mp hrest
      have hother : ∀ y ∈ rest, key y ≠ key x := by
        intro y hy hsame
        have hnone := (hfresh y hy).2
        rw [hput, hsame, get?_set_self] at hnone
        cases hnone
      refine ⟨⟨⟨hx, hnew⟩, fun y hy => ⟨(hfresh y hy).1, ?_⟩⟩, ⟨?_, hnodup⟩, hentries.trans (happend hnew)⟩
      · have hnone := (hfresh y hy).2
        rwa [hput, get?_set_of_ne (hother y hy)] at hnone
      · intro hmem
        obtain ⟨y, hy, hsame⟩ := List.mem_map.mp hmem
        exact hother y hy hsame
    · rintro ⟨⟨⟨hx, hnew⟩, hfresh⟩, ⟨hnot, hnodup⟩, hentries⟩
      refine ⟨put s x, (hadd s x _).mpr ⟨hx, hnew, rfl⟩,
        ih.mpr ⟨fun y hy => ⟨(hfresh y hy).1, ?_⟩, hnodup, hentries.trans (happend hnew).symm⟩⟩
      rw [hput, get?_set_of_ne fun h => hnot (List.mem_map.mpr ⟨y, hy, h⟩)]
      exact (hfresh y hy).2

/-- Setting what is there changes nothing. -/
theorem set_eq_self (h : m.get? k = some a) : m.set k a = m := by
  have hmem := get?_eq_some.mp h
  apply ext_entries
  show setEntries k a m.entries = m.entries
  unfold setEntries
  rw [if_pos (List.mem_map_of_mem hmem)]
  refine (List.map_congr_left fun e he => ?_).trans (List.map_id _)
  split
  case isTrue hkey =>
    have hvalue : e.2 = a := entry_unique (hkey ▸ he) hmem
    exact Prod.ext hkey.symm hvalue.symm
  case isFalse => rfl

theorem keepIf_eq_self_iff {p : κ → α → Bool} : m.keepIf p = m ↔ ∀ j b, m.get? j = some b → p j b = true := by
  constructor
  · intro h j b hb
    have hmem : (j, b) ∈ (m.keepIf p).entries := h.symm ▸ get?_eq_some.mp hb
    exact (mem_keepIf.mp hmem).2
  · intro h
    apply ext_entries
    exact List.filter_eq_self.mpr fun e he => h e.1 e.2 (get?_eq_some.mpr he)

/-- An entry that is set and sifted leaves the map if it was there, or if it comes and goes. -/
theorem keepIf_set_eq_self_iff {p : κ → α → Bool} : (m.set k a).keepIf p = m ↔
    (∀ j b, m.get? j = some b → p j b = true) ∧ (m.get? k = some a ∨ m.get? k = none ∧ p k a = false) := by
  constructor
  · intro h
    have hat : ∀ j, m.get? j = ((m.set k a).get? j).filter (p j) := fun j => by rw [← get?_keepIf, h]
    constructor
    · intro j b hb
      rw [hat, Option.filter_eq_some_iff] at hb
      exact hb.2
    · have hkey := hat k
      rw [get?_set, if_pos rfl, Option.filter_some] at hkey
      cases hp : p k a with
      | true =>
        rw [hp, if_pos rfl] at hkey
        exact .inl hkey
      | false =>
        rw [hp, if_neg Bool.false_ne_true] at hkey
        exact .inr ⟨hkey, rfl⟩
  · intro ⟨hkept, hkey⟩
    rcases hkey with hkey | ⟨hkey, hp⟩
    · rw [set_eq_self hkey]
      exact keepIf_eq_self_iff.mpr hkept
    · apply ext_entries
      show (m.set k a).entries.filter (fun e => p e.1 e.2) = m.entries
      rw [entries_set_new hkey, List.filter_append, List.filter_cons_of_neg (by simp [hp]), List.filter_nil,
        List.append_nil]
      exact List.filter_eq_self.mpr fun e he => hkept e.1 e.2 (get?_eq_some.mpr he)

theorem has_set : (m.set k a).has j = (decide (j = k) || m.has j) := by
  unfold has
  rw [get?_set]
  by_cases h : j = k <;> simp [h]

theorem get?_erase : (m.erase k).get? j = if j = k then none else m.get? j := by
  refine Option.ext fun b => ?_
  rw [get?_eq_some, mem_erase]
  split
  case isTrue hj => simp [hj]
  case isFalse hj => simp [hj, get?_eq_some]

theorem get?_of_setAll {es : List (κ × α)} (h : (m.setAll es).get? k = some a) : (k, a) ∈ es ∨ m.get? k = some a := by
  induction es generalizing m with
  | nil => exact .inr h
  | cons e es ih =>
    rcases ih h with hmem | hget
    · exact .inl (List.mem_cons_of_mem e hmem)
    · rw [get?_set] at hget
      split at hget
      case isTrue hk =>
        obtain rfl := Option.some.inj hget
        exact .inl (hk ▸ List.mem_cons_self)
      case isFalse => exact .inr hget

theorem get?_setAll_of_not_mem {es : List (κ × α)} (h : k ∉ es.map Prod.fst) : (m.setAll es).get? k = m.get? k := by
  induction es generalizing m with
  | nil => rfl
  | cons e es ih =>
    rw [List.map_cons, List.mem_cons, not_or] at h
    exact (ih h.2).trans (get?_set_of_ne h.1)

theorem get?_setAll_of_mem {es : List (κ × α)} (hes : (es.map Prod.fst).Nodup) (h : (k, a) ∈ es) :
    (m.setAll es).get? k = some a := by
  induction es generalizing m with
  | nil => cases h
  | cons e es ih =>
    rw [List.map_cons, List.nodup_cons] at hes
    rcases List.mem_cons.mp h with rfl | hmem
    · exact (get?_setAll_of_not_mem hes.1).trans get?_set_self
    · exact ih hes.2 hmem

/-- Setting entries of another map makes the maps agree at their keys. -/
theorem get?_setAll_of_agree {m₀ : InsertionMap κ α} {es : List (κ × α)} (h : ∀ e ∈ es, m₀.get? e.1 = some e.2) :
    (m.setAll es).get? k = if k ∈ es.map Prod.fst then m₀.get? k else m.get? k := by
  induction es generalizing m with
  | nil => rfl
  | cons e es ih =>
    have hrest := ih (m := m.set e.1 e.2) fun e' he' => h e' (List.mem_cons_of_mem e he')
    show ((m.set e.1 e.2).setAll es).get? k = _
    rw [hrest, get?_set]
    simp only [List.map_cons, List.mem_cons]
    by_cases hk : k = e.1
    · simp only [hk, if_true, true_or, h e List.mem_cons_self, ite_self]
    · simp only [hk, if_false, false_or]

section

variable {ι β : Type} {key : ι → Option κ} {value : ι → β} {l : List ι}

/-- `set(key, [...(get(key) ?? []), value])` for each item that has a key. -/
def groupBy (key : ι → Option κ) (value : ι → β) (l : List ι) : InsertionMap κ (List β) :=
  l.foldl (fun m x ↦ match key x with
    | none => m
    | some k => m.set k ((m.get? k).getD [] ++ [value x])) empty

theorem groupBy_getD : ((groupBy key value l).get? k).getD [] =
    (l.filter fun x => decide (key x = some k)).map value := by
  have hfold : ∀ (l : List ι) (m : InsertionMap κ (List β)), ((l.foldl (fun m x => match key x with
      | none => m
      | some k => m.set k ((m.get? k).getD [] ++ [value x])) m).get? k).getD [] =
        (m.get? k).getD [] ++ (l.filter fun x => decide (key x = some k)).map value := by
    intro l
    induction l with
    | nil => simp
    | cons x rest ih =>
      intro m
      rw [List.foldl_cons, ih]
      cases hkey : key x with
      | none => simp [hkey]
      | some k' =>
        dsimp only
        rw [get?_set]
        by_cases hk : k = k'
        · simp [hk, hkey]
        · have hne : key x ≠ some k := fun h => hk (Option.some.inj (h.symm.trans hkey))
          rw [if_neg hk, List.filter_cons_of_neg (by simpa using hne)]
  exact hfold l empty

/-- The groups stand in the order of the first items of each. -/
theorem keys_groupBy : (groupBy key value l).keys = distinct (l.filterMap key) := by
  induction l using List.reverseRecOn with
  | nil => rfl
  | append_singleton l x ih =>
    unfold groupBy at ih ⊢
    rw [List.foldl_append, List.foldl_cons, List.foldl_nil, List.filterMap_append]
    cases hkey : key x with
    | none => simp [hkey, ih]
    | some k =>
      have hsingle : [x].filterMap key = [k] := by simp [hkey]
      rw [hsingle, distinct_append_singleton]
      dsimp only
      rw [keys_set, ih]
      simp only [mem_distinct]

theorem mem_groupBy {members : List β} (h : (k, members) ∈ (groupBy key value l).entries) :
    members = (l.filter fun x => decide (key x = some k)).map value := by
  rw [← groupBy_getD, get?_eq_some.mpr h, Option.getD_some]

theorem exists_group {b : β} (h : b ∈ (l.filter fun x => decide (key x = some k)).map value) :
    (k, (l.filter fun x => decide (key x = some k)).map value) ∈ (groupBy key value l).entries := by
  cases hget : (groupBy key value l).get? k with
  | none =>
    rw [← groupBy_getD, hget] at h
    exact absurd h List.not_mem_nil
  | some members =>
    have hmem := get?_eq_some.mp hget
    exact mem_groupBy hmem ▸ hmem

end

/-- A measure of the values, summed up. -/
def total (f : κ → α → Nat) (m : InsertionMap κ α) : Nat := (m.entries.map fun e ↦ f e.1 e.2).sum

/-- The measure of the value at a key, and nothing where there is none. -/
def measureAt (f : κ → α → Nat) (m : InsertionMap κ α) (k : κ) : Nat := ((m.get? k).map (f k)).getD 0

/-- The entries of a map around one of its keys. -/
theorem entries_split (h : m.get? k = some b) : ∃ l₁ l₂, m.entries = l₁ ++ (k, b) :: l₂ ∧
    (∀ e ∈ l₁, e.1 ≠ k) ∧ ∀ e ∈ l₂, e.1 ≠ k := by
  obtain ⟨l₁, l₂, hsplit⟩ := List.append_of_mem (get?_eq_some.mp h)
  have hnodup := m.nodup
  rw [hsplit, List.map_append, List.map_cons, List.nodup_middle, List.nodup_cons, List.mem_append, not_or] at hnodup
  exact ⟨l₁, l₂, hsplit, fun e he hk => hnodup.1.1 (List.mem_map.mpr ⟨e, he, hk⟩),
    fun e he hk => hnodup.1.2 (List.mem_map.mpr ⟨e, he, hk⟩)⟩

theorem total_set (f : κ → α → Nat) : total f (m.set k a) + measureAt f m k = total f m + f k a := by
  unfold total measureAt
  show ((setEntries k a m.entries).map _).sum + _ = _
  unfold setEntries
  cases hget : m.get? k with
  | none =>
    have hk : k ∉ m.entries.map Prod.fst := by
      intro hmem
      obtain ⟨e, he, rfl⟩ := List.mem_map.mp hmem
      exact get?_eq_none.mp hget e.2 he
    rw [if_neg hk]
    simp
  | some b =>
    obtain ⟨l₁, l₂, hsplit, h₁, h₂⟩ := entries_split hget
    have hk : k ∈ m.entries.map Prod.fst := List.mem_map.mpr ⟨(k, b), get?_eq_some.mp hget, rfl⟩
    have hmap₁ : l₁.map (fun e => if e.1 = k then (k, a) else e) = l₁ :=
      (List.map_congr_left fun e he => if_neg (h₁ e he)).trans (List.map_id _)
    have hmap₂ : l₂.map (fun e => if e.1 = k then (k, a) else e) = l₂ :=
      (List.map_congr_left fun e he => if_neg (h₂ e he)).trans (List.map_id _)
    rw [if_pos hk, hsplit, List.map_append, List.map_cons, hmap₁, hmap₂, if_pos rfl]
    simp only [List.map_append, List.map_cons, List.sum_append, List.sum_cons, Option.map_some, Option.getD_some]
    omega

theorem mem_values : a ∈ m.values ↔ ∃ k, m.get? k = some a := by
  simp only [values, List.mem_map, Prod.exists, exists_eq_right, get?_eq_some]

theorem mem_keys : k ∈ m.keys ↔ ∃ a, m.get? k = some a := by
  simp only [keys, List.mem_map, Prod.exists, exists_and_right, exists_eq_right, get?_eq_some]

theorem values_eq_filterMap : m.values = m.keys.filterMap m.get? := by
  unfold values keys
  rw [List.filterMap_map, ← List.filterMap_eq_map]
  exact List.filterMap_congr fun e he => (get?_eq_some.mpr he).symm

end InsertionMap

end Collections
