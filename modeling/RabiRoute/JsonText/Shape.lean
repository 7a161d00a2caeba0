import RabiRoute.JsonText.Document

/-!
# The shape of what is written

The text of a document has no control units but line feeds, and no empty lines.
-/

namespace RabiRoute.JsonText

/-! ## The code units that are written -/

theorem hexDigit_plain : ∀ n < 16, 32 ≤ hexDigit n := by
  decide

theorem escape_plain (u x : UInt16) (h : x ∈ (if (isLead u || isTrail u) = true then hexEscape u else escapeUnit u)) :
    32 ≤ x := by
  have hhex (h : x ∈ hexEscape u) : 32 ≤ x := by
    have hu : u.toNat < 65536 := u.toNat_lt
    simp only [hexEscape, List.mem_cons, List.not_mem_nil, or_false] at h
    rcases h with rfl | rfl | rfl | rfl | rfl | rfl
    · decide
    · decide
    · exact hexDigit_plain _ (by omega)
    · exact hexDigit_plain _ (by omega)
    · exact hexDigit_plain _ (by omega)
    · exact hexDigit_plain _ (by omega)
  split at h
  case isTrue => exact hhex h
  case isFalse =>
    unfold escapeUnit at h
    repeat' split at h
    any_goals
      simp only [List.mem_cons, List.not_mem_nil, or_false] at h
      rcases h with rfl | rfl <;> decide
    · exact hhex h
    case isFalse hlarge =>
      rw [List.mem_singleton.mp h]
      exact UInt16.not_lt.mp hlarge

theorem escapeUnits_plain (text : JsString) : ∀ x ∈ escapeUnits text, 32 ≤ x := by
  fun_induction escapeUnits text with
  | case1 => exact fun _ h => absurd h List.not_mem_nil
  | case2 u hsurrogate => exact fun x hx => escape_plain u x (by rwa [if_pos hsurrogate])
  | case3 u hsurrogate => exact fun x hx => escape_plain u x (by rwa [if_neg hsurrogate])
  | case4 u v text hpair ih =>
    rw [Bool.and_eq_true] at hpair
    have hu := (isLead_plain (.inl hpair.1)).2.2
    have hv := (isLead_plain (.inr hpair.2)).2.2
    exact List.forall_mem_cons.mpr ⟨UInt16.not_lt.mp hu, List.forall_mem_cons.mpr ⟨UInt16.not_lt.mp hv, ih⟩⟩
  | case5 u v text hpair ih =>
    intro x hx
    exact (List.mem_append.mp hx).elim (escape_plain u x) (ih x)

/-- No line is empty: no two line feeds stand next to each other. -/
def Unbroken (text : JsString) : Prop := text.IsChain fun a b ↦ ¬(a = 10 ∧ b = 10)

theorem unbroken_append {text rest : JsString} (h : 10 ∉ text) (hrest : Unbroken rest) : Unbroken (text ++ rest) := by
  induction text with
  | nil => exact hrest
  | cons u text ih =>
    rw [List.mem_cons, not_or] at h
    exact List.isChain_cons.mpr ⟨fun _ _ hboth => h.1 hboth.1.symm, ih h.2⟩

/-- A line that does not start with a line feed. -/
theorem unbroken_line {u : UInt16} {rest : JsString} (hu : u ≠ 10) (h : Unbroken (u :: rest)) :
    Unbroken (10 :: u :: rest) :=
  List.isChain_cons_cons.mpr ⟨fun hboth => hu hboth.2, h⟩

theorem quote_plain (text : JsString) : ∀ x ∈ quote text, 32 ≤ x := by
  unfold quote
  refine List.forall_mem_cons.mpr ⟨by decide, fun x hx => ?_⟩
  rcases List.mem_append.mp hx with hbody | hend
  · exact escapeUnits_plain text x hbody
  · rw [List.mem_singleton.mp hend]
    decide

theorem plain_ne_break {text : JsString} (h : ∀ x ∈ text, 32 ≤ x) : 10 ∉ text :=
  fun hmem => absurd (h 10 hmem) (by decide)

/-- The spaces of an indented line, and what follows them. -/
theorem unbroken_indent {indent : JsString} {u : UInt16} {rest : JsString} (h : ∀ x ∈ indent, x = 32) (hu : u ≠ 10)
    (hrest : Unbroken (u :: rest)) : Unbroken (10 :: (indent ++ u :: rest)) := by
  have hspaces : 10 ∉ indent := fun hmem => absurd (h 10 hmem) (by decide)
  cases indent with
  | nil => exact unbroken_line hu hrest
  | cons v indent =>
    have hv : v ≠ 10 := fun heq => hspaces (heq ▸ List.mem_cons_self)
    exact unbroken_line hv (unbroken_append hspaces hrest)

theorem spaces_indent {indent : JsString} (h : ∀ x ∈ indent, x = 32) : ∀ x ∈ indent ++ js "  ", x = 32 := by
  intro x hx
  rcases List.mem_append.mp hx with hold | hnew
  · exact h x hold
  · have hspaces : ∀ u ∈ js "  ", u = 32 := JsString.forall_of_all (by decide)
    exact hspaces x hnew

mutual

theorem unbroken_write : ∀ (document : Document) (indent rest : JsString), (∀ x ∈ indent, x = 32) →
    Unbroken rest → Unbroken (write indent document ++ rest)
  | .text text, indent, rest, _, hrest => by
      rw [write]
      exact unbroken_append (plain_ne_break (quote_plain text)) hrest
  | .record [], indent, rest, _, hrest => by
      rw [write]
      exact unbroken_append (by decide) hrest
  | .record (field :: fields), indent, rest, hindent, hrest => by
      have hclose : Unbroken (10 :: (indent ++ 125 :: rest)) :=
        unbroken_indent hindent (by decide) (unbroken_append (show 10 ∉ [125] by decide) hrest)
      have hfields := unbroken_writeFields (field :: fields) (indent ++ js "  ") _ (spaces_indent hindent) hclose
      rw [write_record]
      exact unbroken_append (show 10 ∉ [123] by decide) hfields

theorem unbroken_writeFields : ∀ (fields : List (JsString × Document)) (indent rest : JsString),
    (∀ x ∈ indent, x = 32) → Unbroken rest → Unbroken (writeFields indent fields ++ rest)
  | [], indent, rest, _, hrest => by
      rw [writeFields]
      exact hrest
  | [(name, document)], indent, rest, hindent, hrest => by
      have hvalue := unbroken_write document indent rest hindent hrest
      have hname := unbroken_append (plain_ne_break (quote_plain name)) (unbroken_append (show 10 ∉ js ": " by decide) hvalue)
      rw [writeFields, List.append_assoc, List.append_assoc, List.append_assoc]
      exact unbroken_indent hindent (by decide) hname
  | (name, document) :: next :: fields, indent, rest, hindent, hrest => by
      have hfields := unbroken_writeFields (next :: fields) indent rest hindent hrest
      have hvalue := unbroken_write document indent _ hindent (unbroken_append (show 10 ∉ [44] by decide) hfields)
      have hname := unbroken_append (plain_ne_break (quote_plain name)) (unbroken_append (show 10 ∉ js ": " by decide) hvalue)
      rw [writeFields, List.append_assoc, List.append_assoc, List.append_assoc, List.append_assoc]
      exact unbroken_indent hindent (by decide) hname

end

theorem unbroken_stringify (document : Document) : Unbroken (stringify document) := by
  have hwritten := unbroken_write document [] [] (fun _ h => absurd h List.not_mem_nil) List.isChain_nil
  rwa [List.append_nil] at hwritten

/-- Line feeds are the only control units. -/
def Plain (text : JsString) : Prop := ∀ x ∈ text, x = 10 ∨ 32 ≤ x

theorem Plain.append {a b : JsString} (ha : Plain a) (hb : Plain b) : Plain (a ++ b) :=
  fun x hx => (List.mem_append.mp hx).elim (ha x) (hb x)

theorem plain_quote (text : JsString) : Plain (quote text) := fun x hx => .inr (quote_plain text x hx)

theorem plain_indent {indent : JsString} (h : ∀ x ∈ indent, x = 32) : Plain (10 :: indent) :=
  List.forall_mem_cons.mpr ⟨.inl rfl, fun x hx => .inr (by rw [h x hx]; decide)⟩

mutual

theorem plain_write : ∀ (document : Document) (indent : JsString), (∀ x ∈ indent, x = 32) →
    Plain (write indent document)
  | .text text, indent, _ => by
      rw [write]
      exact plain_quote text
  | .record [], indent, _ => by
      rw [write]
      exact JsString.forall_of_all (by decide)
  | .record (field :: fields), indent, hindent => by
      have hopen : Plain [123] := JsString.forall_of_all (by decide)
      have hclose : Plain [125] := JsString.forall_of_all (by decide)
      rw [write]
      exact hopen.append ((plain_writeFields (field :: fields) _ (spaces_indent hindent)).append
        ((plain_indent hindent).append hclose))

theorem plain_writeFields : ∀ (fields : List (JsString × Document)) (indent : JsString), (∀ x ∈ indent, x = 32) →
    Plain (writeFields indent fields)
  | [], indent, _ => by
      rw [writeFields]
      exact fun _ h => absurd h List.not_mem_nil
  | [(name, document)], indent, hindent => by
      have hcolon : Plain (js ": ") := JsString.forall_of_all (by decide)
      rw [writeFields]
      exact (plain_indent hindent).append ((plain_quote name).append (hcolon.append (plain_write document indent hindent)))
  | (name, document) :: field :: fields, indent, hindent => by
      have hcolon : Plain (js ": ") := JsString.forall_of_all (by decide)
      have hcomma : Plain [44] := JsString.forall_of_all (by decide)
      rw [writeFields]
      exact ((plain_indent hindent).append ((plain_quote name).append
        (hcolon.append (plain_write document indent hindent)))).append
          (hcomma.append (plain_writeFields (field :: fields) indent hindent))

end

theorem plain_stringify (document : Document) : Plain (stringify document) :=
  plain_write document [] fun _ h => absurd h List.not_mem_nil

end RabiRoute.JsonText
