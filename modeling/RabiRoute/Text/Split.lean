import Mathlib.Data.List.Infix
import Mathlib.Data.List.Chain
import Mathlib.Tactic.Common

/-!
# Splitting texts

`split` cuts a text at the occurrences of a separator, from the left and without overlaps, as `split`
with a string does in JavaScript.  What a proof needs of a text is where the separator does not start:
a part that is clear of it goes into the first piece as a whole.
-/

namespace Text

variable {α : Type} [DecidableEq α]

/-- Skip so many items of a separator, then go on with the pieces. -/
def splitFrom (separator : List α) : Nat → List α → List (List α)
  | _, [] => [[]]
  | skip + 1, _ :: rest => splitFrom separator skip rest
  | 0, u :: rest =>
    if separator <+: u :: rest then [] :: splitFrom separator (separator.length - 1) rest
    else (splitFrom separator 0 rest).modifyHead (u :: ·)

/-- `split(separator)`, for a separator that is not empty. -/
def split (separator text : List α) : List (List α) := splitFrom separator 0 text

/-- `indexOf(part)` -/
def indexOf (part : List α) : List α → Option Nat
  | [] => if part = [] then some 0 else none
  | u :: rest => if part <+: u :: rest then some 0 else (indexOf part rest).map (· + 1)

/-- No occurrence of the separator starts in the text, before the rest. -/
def Clear (separator text rest : List α) : Prop :=
  ∀ a b, text = a ++ b → b ≠ [] → ¬separator <+: b ++ rest

variable {separator text rest : List α}

section

omit [DecidableEq α]

theorem Clear.nil : Clear separator [] rest := by
  intro a b h hb
  exact absurd (List.append_eq_nil_iff.mp h.symm).2 hb

theorem clear_cons {u : α} :
    Clear separator (u :: text) rest ↔ ¬separator <+: u :: (text ++ rest) ∧ Clear separator text rest := by
  constructor
  · intro h
    refine ⟨h [] (u :: text) rfl (List.cons_ne_nil u text), fun a b hab hb => ?_⟩
    exact h (u :: a) b (congrArg (u :: ·) hab) hb
  · rintro ⟨hfirst, hrest⟩ a b hab hb
    cases a with
    | nil =>
      rw [List.nil_append] at hab
      exact hab ▸ hfirst
    | cons v a =>
      obtain ⟨-, htext⟩ := List.cons.inj hab
      exact hrest a b htext hb

theorem Clear.append {more : List α} (h : Clear separator text (more ++ rest)) (hmore : Clear separator more rest) :
    Clear separator (text ++ more) rest := by
  induction text with
  | nil => exact hmore
  | cons u text ih =>
    obtain ⟨hfirst, htail⟩ := clear_cons.mp h
    refine clear_cons.mpr ⟨?_, ih htail⟩
    show ¬separator <+: u :: (text ++ more ++ rest)
    rwa [List.append_assoc]

/-- A text in which the first two items of the separator do not stand next to each other. -/
theorem clear_of_pairs {x y : α} {more : List α} (hpairs : text.IsChain fun a b => ¬(a = x ∧ b = y))
    (hlast : text.getLast? ≠ some x) : Clear (x :: y :: more) text rest := by
  intro a b hab hb hbegins
  subst hab
  have hpairs := hpairs.right_of_append
  rw [List.getLast?_append_of_ne_nil a hb] at hlast
  cases b with
  | nil => exact hb rfl
  | cons u b =>
    obtain ⟨hux, hbegins⟩ := List.cons_prefix_cons.mp hbegins
    cases b with
    | nil =>
      apply hlast
      rw [hux]
      rfl
    | cons v b =>
      obtain ⟨hvy, -⟩ := List.cons_prefix_cons.mp hbegins
      exact (List.isChain_cons_cons.mp hpairs).1 ⟨hux.symm, hvy.symm⟩

/-- Where a separator occurs, there is a first occurrence of it. -/
theorem exists_first (h : separator <:+: text) :
    ∃ before after, text = before ++ (separator ++ after) ∧ Clear separator before (separator ++ after) := by
  induction text with
  | nil =>
    obtain rfl := List.infix_nil.mp h
    exact ⟨[], [], rfl, .nil⟩
  | cons u text ih =>
    by_cases hfirst : separator <+: u :: text
    · obtain ⟨after, hafter⟩ := hfirst
      exact ⟨[], after, hafter.symm, .nil⟩
    · obtain ⟨before, after, rfl, hclear⟩ := ih ((List.infix_cons_iff.mp h).resolve_left hfirst)
      exact ⟨u :: before, after, rfl, clear_cons.mpr ⟨hfirst, hclear⟩⟩

/-- A part that starts with another item. -/
theorem not_begins {part : List α} {u : α} (h : part ≠ [] ∧ part.head? ≠ some u) : ¬part <+: u :: text := by
  cases part with
  | nil => exact absurd rfl h.1
  | cons v part => exact fun hbegins => h.2 (congrArg some (List.cons_prefix_cons.mp hbegins).1)

/-! An item that the separator does not have -/

theorem prefix_before {u : α} {before after : List α} (hu : u ∉ separator) :
    separator <+: before ++ u :: after ↔ separator <+: before := by
  constructor
  · intro h
    rcases List.prefix_or_prefix_of_prefix h (List.prefix_append before (u :: after)) with hbefore | ⟨more, rfl⟩
    · exact hbefore
    · rw [List.prefix_append_right_inj] at h
      cases more with
      | nil => rw [List.append_nil]
      | cons v more =>
        exfalso
        apply hu
        rw [← (List.cons_prefix_cons.mp h).1]
        exact List.mem_append_right before List.mem_cons_self
  · exact fun h => h.trans (List.prefix_append before _)

/-- A part without the item lies on one side of it. -/
theorem infix_around {u : α} {before after : List α} (hne : separator ≠ []) (hu : u ∉ separator) :
    separator <:+: before ++ u :: after ↔ separator <:+: before ∨ separator <:+: after := by
  induction before with
  | nil =>
    rw [List.nil_append, List.infix_cons_iff, List.infix_nil]
    have hfirst : ¬separator <+: u :: after := by
      intro h
      cases separator with
      | nil => exact hne rfl
      | cons v separator =>
        apply hu
        rw [← (List.cons_prefix_cons.mp h).1]
        exact List.mem_cons_self
    exact or_congr (iff_of_false hfirst hne) Iff.rfl
  | cons v before ih =>
    rw [List.cons_append, List.infix_cons_iff, ih, ← List.cons_append, prefix_before hu, List.infix_cons_iff, or_assoc]

theorem clear_before {u : α} (hu : u ∉ separator) (h : ¬separator <:+: text) : Clear separator text (u :: rest) := by
  intro a b hab _ hbegins
  rw [prefix_before hu] at hbegins
  apply h
  rw [hab]
  exact List.infix_append_of_infix_right hbegins.isInfix

/-- What comes after an occurrence of the separator does not matter for what is before it. -/
theorem Clear.extend {more : List α} (h : Clear separator text (separator ++ rest)) :
    Clear separator text (separator ++ rest ++ more) := by
  intro a b hab hb hbegins
  apply h a b hab hb
  rw [← List.append_assoc] at hbegins
  refine List.prefix_of_prefix_length_le hbegins (List.prefix_append _ more) ?_
  rw [List.length_append, List.length_append]
  omega

theorem clear_of_absent (h : ¬separator <:+: text) : Clear separator text [] := by
  intro a b hab _ hbegins
  rw [List.append_nil] at hbegins
  exact h (hbegins.isInfix.trans ⟨a, [], by rw [hab, List.append_nil]⟩)

end

/-! ## Pieces -/

theorem splitFrom_skip (skipped : List α) :
    splitFrom separator skipped.length (skipped ++ rest) = split separator rest := by
  induction skipped with
  | nil => rfl
  | cons _ skipped ih => exact ih

theorem split_separator (h : separator ≠ []) : split separator (separator ++ rest) = [] :: split separator rest := by
  cases separator with
  | nil => exact absurd rfl h
  | cons u separator =>
    show splitFrom (u :: separator) 0 (u :: (separator ++ rest)) = _
    unfold splitFrom
    rw [if_pos ⟨rest, rfl⟩]
    exact congrArg ([] :: ·) (splitFrom_skip separator)

/-- A clear part goes into the first piece. -/
theorem split_clear (h : Clear separator text rest) :
    split separator (text ++ rest) = (split separator rest).modifyHead (text ++ ·) := by
  induction text with
  | nil =>
    show split separator rest = (split separator rest).modifyHead id
    rw [List.modifyHead_id]
    rfl
  | cons u text ih =>
    obtain ⟨hfirst, htail⟩ := clear_cons.mp h
    show splitFrom separator 0 (u :: (text ++ rest)) = _
    unfold splitFrom
    rw [if_neg hfirst, show splitFrom separator 0 (text ++ rest) = _ from ih htail, List.modifyHead_modifyHead]
    rfl

theorem split_of_absent (h : ¬separator <:+: text) : split separator text = [text] := by
  have hsplit := split_clear (clear_of_absent h)
  rw [List.append_nil] at hsplit
  rw [hsplit]
  show [text ++ []] = [text]
  rw [List.append_nil]

/-- The text before the first occurrence is the first piece. -/
theorem split_first (h : separator ≠ []) (hclear : Clear separator text (separator ++ rest)) :
    split separator (text ++ (separator ++ rest)) = text :: split separator rest := by
  rw [split_clear hclear, split_separator h]
  show (text ++ []) :: _ = _
  rw [List.append_nil]

theorem length_split_pos : 0 < (split separator text).length := by
  have hfrom : ∀ (text : List α) (skip : Nat), 0 < (splitFrom separator skip text).length := by
    intro text
    induction text with
    | nil =>
      intro skip
      cases skip <;> exact Nat.zero_lt_one
    | cons u text ih =>
      intro skip
      cases skip with
      | zero =>
        unfold splitFrom
        split
        · exact Nat.succ_pos _
        · rw [List.length_modifyHead]
          exact ih 0
      | succ skip => exact ih skip
  exact hfrom text 0

theorem two_le_length_split (h : separator ≠ []) (hwithin : separator <:+: text) :
    2 ≤ (split separator text).length := by
  obtain ⟨before, after, rfl, hclear⟩ := exists_first hwithin
  rw [split_first h hclear, List.length_cons]
  have hpos : 0 < (split separator after).length := length_split_pos
  omega

theorem indexOf_first (h : Clear separator text (separator ++ rest)) :
    indexOf separator (text ++ (separator ++ rest)) = some text.length := by
  induction text with
  | nil =>
    rw [List.nil_append]
    cases hall : separator ++ rest with
    | nil =>
      obtain ⟨rfl, -⟩ := List.append_eq_nil_iff.mp hall
      rfl
    | cons u after =>
      unfold indexOf
      rw [if_pos (hall ▸ List.prefix_append separator rest)]
      rfl
  | cons u text ih =>
    obtain ⟨hfirst, htail⟩ := clear_cons.mp h
    show indexOf separator (u :: (text ++ (separator ++ rest))) = _
    unfold indexOf
    rw [if_neg hfirst, ih htail]
    rfl

end Text
