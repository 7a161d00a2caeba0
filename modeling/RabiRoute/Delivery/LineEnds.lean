import RabiRoute.Delivery.RabiMessage

/-!
# Line ends

Reading CRLF as LF changes a text line by line, and only at the ends of its lines; what is around a line
does not matter.
-/

namespace RabiRoute.Delivery

open AgentRequests (unixLines)

/-- `replace(/\n/g, "\r\n")` -/
def crlfLines (text : JsString) : JsString := text.flatMap fun u ↦ if u = 10 then [13, 10] else [u]

/-! ## CRLF -/

theorem unixLines_cons {u : UInt16} (h : u ≠ 13) (text : JsString) : unixLines (u :: text) = u :: unixLines text := by
  cases text with
  | nil => rfl
  | cons v text =>
    rw [unixLines, if_neg]
    simp [h]

theorem unixLines_return {v : UInt16} (h : v ≠ 10) (text : JsString) :
    unixLines (13 :: v :: text) = 13 :: unixLines (v :: text) := by
  rw [unixLines, if_neg]
  simp [h]

theorem unixLines_crlf (text : JsString) : unixLines (13 :: 10 :: text) = 10 :: unixLines text := by
  rw [unixLines, if_pos (by decide)]

/-- A text without carriage returns stays as it is. -/
theorem unixLines_eq {text : JsString} (h : 13 ∉ text) : unixLines text = text := by
  induction text with
  | nil => rfl
  | cons u text ih =>
    rw [List.mem_cons, not_or] at h
    rw [unixLines_cons (Ne.symm h.1), ih h.2]

theorem unixLines_append {a b : JsString} (h : a.getLast? ≠ some 13) :
    unixLines (a ++ b) = unixLines a ++ unixLines b := by
  fun_induction unixLines a with
  | case1 => rfl
  | case2 u =>
    have hu : u ≠ 13 := fun heq => h (congrArg some heq)
    exact unixLines_cons hu b
  | case3 u v rest hpair ih =>
    rw [Bool.and_eq_true, decide_eq_true_eq, decide_eq_true_eq] at hpair
    rw [hpair.1, hpair.2]
    show unixLines (13 :: 10 :: (rest ++ b)) = _
    rw [unixLines_crlf, ih]
    · rfl
    · cases rest with
      | nil => simp
      | cons w rest => simpa using h
  | case4 u v rest hpair ih =>
    have hlast : (v :: rest).getLast? ≠ some 13 := by simpa using h
    have hstep : unixLines (u :: v :: (rest ++ b)) = u :: unixLines (v :: (rest ++ b)) := by
      rw [unixLines, if_neg hpair]
    exact hstep.trans (congrArg (u :: ·) (ih hlast))

theorem getLast?_unixLines (text : JsString) : (unixLines text).getLast? = text.getLast? := by
  fun_induction unixLines text with
  | case1 => rfl
  | case2 u => rfl
  | case3 u v rest hpair ih =>
    rw [Bool.and_eq_true, decide_eq_true_eq, decide_eq_true_eq] at hpair
    rw [List.getLast?_cons, ih, hpair.2, List.getLast?_cons_cons, List.getLast?_cons]
  | case4 u v rest hpair ih => rw [List.getLast?_cons, ih, List.getLast?_cons_cons, List.getLast?_cons, Option.getD_some]

/-- Reading the line ends of a text that got CRLF gives the text back. -/
theorem unixLines_crlfLines (text : JsString) : unixLines (crlfLines text) = text := by
  induction text with
  | nil => rfl
  | cons u text ih =>
    have hcons : crlfLines (u :: text) = (if u = 10 then [13, 10] else [u]) ++ crlfLines text := rfl
    by_cases hu : u = 10
    · rw [hcons, if_pos hu, hu]
      exact (unixLines_crlf _).trans (congrArg (10 :: ·) ih)
    · rw [hcons, if_neg hu]
      show unixLines (u :: crlfLines text) = _
      by_cases h13 : u = 13
      · -- a carriage return is not followed by a line feed, as each line feed got one of its own
        cases text with
        | nil => rfl
        | cons v text =>
          by_cases hv : v = 10
          · rw [h13, hv]
            show unixLines (13 :: 13 :: 10 :: crlfLines text) = _
            rw [unixLines_return (by decide)]
            rw [hv] at ih
            exact congrArg (13 :: ·) ih
          · have hnext : crlfLines (v :: text) = v :: crlfLines text := by
              show (if v = 10 then [13, 10] else [v]) ++ crlfLines text = _
              rw [if_neg hv]
              rfl
            rw [h13, hnext, unixLines_return hv, ← hnext, ih]
      · rw [unixLines_cons h13, ih]

/-! ## Lines -/

theorem split_break (text : JsString) : Text.split [10] (10 :: text) = [] :: Text.split [10] text :=
  Text.split_separator (List.cons_ne_nil 10 [])

theorem split_unit {u : UInt16} (h : u ≠ 10) (text : JsString) :
    Text.split [10] (u :: text) = (Text.split [10] text).modifyHead (u :: ·) := by
  have hclear : Text.Clear [10] [u] text := by
    refine Text.clear_cons.mpr ⟨fun hbegins => ?_, .nil⟩
    exact h (List.cons_prefix_cons.mp hbegins).1.symm
  exact Text.split_clear hclear

theorem clear_line {line rest : JsString} (h : 10 ∉ line) : Text.Clear [10] line rest := by
  intro a b hab hb hbegins
  cases b with
  | nil => exact hb rfl
  | cons v b =>
    apply h
    rw [hab, (List.cons_prefix_cons.mp hbegins).1]
    exact List.mem_append_right a List.mem_cons_self

/-- Lines that have no line feed are read back from the text that they make. -/
theorem split_joinLines {lines : List JsString} (hne : lines ≠ []) (h : ∀ line ∈ lines, 10 ∉ line) :
    Text.split [10] (joinLines lines) = lines := by
  unfold joinLines
  induction lines with
  | nil => exact absurd rfl hne
  | cons line lines ih =>
    rw [List.forall_mem_cons] at h
    cases lines with
    | nil =>
      have hlast := Text.split_clear (@clear_line line [] h.1)
      rw [List.append_nil] at hlast
      rw [List.intercalate_singleton, hlast]
      show [line ++ []] = [line]
      rw [List.append_nil]
    | cons next lines =>
      rw [List.intercalate_cons_cons, List.append_assoc, Text.split_clear (clear_line h.1)]
      show (Text.split [10] (10 :: [10].intercalate (next :: lines))).modifyHead _ = _
      rw [split_break, ih (List.cons_ne_nil next lines) h.2]
      show (line ++ []) :: _ = _
      rw [List.append_nil]

/-- No line of a split text has a line feed. -/
theorem split_lines (text : JsString) : ∀ line ∈ Text.split [10] text, 10 ∉ line := by
  induction text with
  | nil =>
    intro line hline
    rw [List.mem_singleton.mp hline]
    exact List.not_mem_nil
  | cons u text ih =>
    by_cases hu : u = 10
    · rw [hu, split_break]
      exact List.forall_mem_cons.mpr ⟨List.not_mem_nil, ih⟩
    · rw [split_unit hu]
      intro line hline
      cases hlines : Text.split [10] text with
      | nil =>
        rw [hlines] at hline
        cases hline
      | cons first lines =>
        rw [hlines] at hline ih
        rw [List.forall_mem_cons] at ih
        rcases List.mem_cons.mp hline with rfl | hrest
        · exact fun hmem => (List.mem_cons.mp hmem).elim (fun heq => hu heq.symm) ih.1
        · exact ih.2 line hrest

theorem split_line {line after : JsString} (hline : 10 ∉ line) (hafter : after = [] ∨ after.head? = some 10) :
    line ∈ Text.split [10] (line ++ after) := by
  rw [Text.split_clear (clear_line hline)]
  cases after with
  | nil =>
    show line ∈ [line ++ []]
    rw [List.append_nil]
    exact List.mem_singleton_self line
  | cons u after =>
    have hu : u = 10 := by simpa using hafter
    rw [hu, split_break]
    show line ∈ (line ++ []) :: _
    rw [List.append_nil]
    exact List.mem_cons_self

/-- A line of a text, with the line feed before it and what may stand after it. -/
theorem mem_split {before line after : JsString} (hline : 10 ∉ line) (hafter : after = [] ∨ after.head? = some 10) :
    line ∈ Text.split [10] (before ++ 10 :: (line ++ after)) := by
  have htail : line ∈ (Text.split [10] (before ++ 10 :: (line ++ after))).tail := by
    induction before with
    | nil =>
      rw [List.nil_append, split_break]
      exact split_line hline hafter
    | cons u before ih =>
      show line ∈ (Text.split [10] (u :: (before ++ 10 :: (line ++ after)))).tail
      by_cases hu : u = 10
      · rw [hu, split_break]
        exact List.mem_of_mem_tail ih
      · rw [split_unit hu, List.tail_modifyHead]
        exact ih
  exact List.mem_of_mem_tail htail

end RabiRoute.Delivery
