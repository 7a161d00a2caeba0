import RabiRoute.Delivery.DeliveryIdentity
import RabiRoute.Delivery.SourceLines
import RabiRoute.JsonText.Shape

/-!
# The header of an envelope

The lines of the source and the line of the delivery id.  Reading the field of the id gives the id back,
and nothing else in the header looks like the end of it.
-/

namespace RabiRoute.Delivery

open JsonText (Unbroken unbroken_append unbroken_line)

/-! ## Reading a field -/

section

variable {label : JsString}

/-- A unit at which no field starts. -/
theorem fieldAt_pass {u : UInt16} {rest : JsString} {start : Bool} (h : (start && label.isPrefixOf (u :: rest)) = false) :
    fieldAt label start (u :: rest) = fieldAt label (isLineTerminator u) rest := by
  rw [fieldAt.eq_def]
  simp only [h, Bool.false_and, Bool.false_eq_true, if_false]
  rfl

theorem fieldAt_skip {line rest : JsString} (hline : OneLine line) :
    fieldAt label false (line ++ 10 :: rest) = fieldAt label true rest := by
  induction line with
  | nil => exact fieldAt_pass (Bool.false_and _)
  | cons u line ih =>
    obtain ⟨hu, hline⟩ := oneLine_cons.mp hline
    rw [List.cons_append, fieldAt_pass (Bool.false_and _), hu]
    exact ih hline

theorem fieldAt_end {line : JsString} (hline : OneLine line) : fieldAt label false line = none := by
  induction line with
  | nil => rfl
  | cons u line ih =>
    obtain ⟨hu, hline⟩ := oneLine_cons.mp hline
    rw [fieldAt_pass (Bool.false_and _), hu]
    exact ih hline

theorem not_isPrefixOf {text : JsString} (h : ¬label <+: text) : (true && label.isPrefixOf text) = false := by
  rw [Bool.true_and, Bool.eq_false_iff]
  exact fun hbegins => h (List.isPrefixOf_iff_prefix.mp hbegins)

/-- A line that does not start with the label is passed over. -/
theorem fieldAt_line {line rest : JsString} (hline : OneLine line) (hlabel : 10 ∉ label)
    (hother : ¬label <+: line) : fieldAt label true (line ++ 10 :: rest) = fieldAt label true rest := by
  have hbegins : ¬label <+: line ++ 10 :: rest := fun h => hother ((Text.prefix_before hlabel).mp h)
  cases line with
  | nil => exact fieldAt_pass (not_isPrefixOf hbegins)
  | cons u line =>
    obtain ⟨hu, hline⟩ := oneLine_cons.mp hline
    rw [List.cons_append] at hbegins ⊢
    rw [fieldAt_pass (not_isPrefixOf hbegins), hu]
    exact fieldAt_skip hline

theorem fieldAt_last {line : JsString} (hline : OneLine line) (hother : ¬label <+: line) :
    fieldAt label true line = none := by
  cases line with
  | nil => rfl
  | cons u line =>
    obtain ⟨hu, hline⟩ := oneLine_cons.mp hline
    rw [fieldAt_pass (not_isPrefixOf hother), hu]
    exact fieldAt_end hline

theorem fieldAt_value {value : JsString} (hlabel : label ≠ []) (hvalue : value ≠ []) (hbreak : 10 ∉ value) :
    fieldAt label true (label ++ value) = some value := by
  have htake : value.takeWhile (fun u => u != 10) = value := by
    rw [List.takeWhile_eq_self_iff]
    intro u hu
    have hne : u ≠ 10 := fun heq => hbreak (heq ▸ hu)
    simpa using hne
  have hbegins : label.isPrefixOf (label ++ value) = true :=
    List.isPrefixOf_iff_prefix.mpr (List.prefix_append label value)
  cases label with
  | nil => exact absurd rfl hlabel
  | cons u label =>
    rw [List.cons_append] at hbegins ⊢
    rw [fieldAt.eq_def]
    simp only [hbegins]
    rw [show (u :: (label ++ value)).drop (u :: label).length = value from List.drop_left, htake]
    cases value with
    | nil => exact absurd rfl hvalue
    | cons v value => rfl

end

/-! ## Header lines -/

def idLabel : JsString := js "- 投递 ID："

/-- A line of the header that says something of the source. -/
structure HeaderLine (line : JsString) : Prop where
  oneLine : OneLine line
  nonempty : line ≠ []
  other : ¬idLabel <+: line

/-- The text of a header, and the id that is read from it. -/
structure HeaderText (text : JsString) (id : Option JsString) : Prop where
  start : js "## 消息源\n" <+: text
  unix : 13 ∉ text
  unbroken : Unbroken text
  last : text.getLast? ≠ some 10
  field : fieldAt idLabel true text = id

theorem joinLines_cons {line next : JsString} {lines : List JsString} :
    joinLines (line :: next :: lines) = line ++ 10 :: joinLines (next :: lines) := by
  unfold joinLines
  rw [List.intercalate_cons_cons, List.append_assoc]
  rfl

theorem joinLines_singleton {line : JsString} : joinLines [line] = line := List.intercalate_singleton

theorem mem_joinLines {u : UInt16} {lines : List JsString} (hu : u ≠ 10) (h : ∀ line ∈ lines, u ∉ line) :
    u ∉ joinLines lines := by
  induction lines with
  | nil => exact List.not_mem_nil
  | cons line lines ih =>
    rw [List.forall_mem_cons] at h
    cases lines with
    | nil =>
      rw [joinLines_singleton]
      exact h.1
    | cons next lines =>
      rw [joinLines_cons, List.mem_append, List.mem_cons, not_or, not_or]
      exact ⟨h.1, hu, ih h.2⟩

/-- Lines that are not empty. -/
theorem unbroken_joinLines {line : JsString} {lines : List JsString}
    (h : ∀ each ∈ line :: lines, OneLine each ∧ each ≠ []) :
    ∃ u rest, joinLines (line :: lines) = u :: rest ∧ u ≠ 10 ∧ Unbroken (u :: rest) ∧
      (u :: rest).getLast? ≠ some 10 := by
  induction lines generalizing line with
  | nil =>
    rw [joinLines_singleton]
    obtain ⟨⟨hline, hne⟩, -⟩ := List.forall_mem_cons.mp h
    have hbreak : 10 ∉ line := hline.not_mem (by decide)
    cases line with
    | nil => exact absurd rfl hne
    | cons u line =>
      refine ⟨u, line, rfl, fun heq => hbreak (heq ▸ List.mem_cons_self), ?_, fun hlast => ?_⟩
      · have hunbroken : Unbroken (u :: line ++ []) := unbroken_append hbreak .nil
        rwa [List.append_nil] at hunbroken
      · exact hbreak (List.mem_of_getLast? hlast)
  | cons next lines ih =>
    obtain ⟨⟨hline, hne⟩, hlines⟩ := List.forall_mem_cons.mp h
    obtain ⟨v, rest, hjoin, hv, hunbroken, hlast⟩ := ih hlines
    have hbreak : 10 ∉ line := hline.not_mem (by decide)
    rw [joinLines_cons, hjoin]
    cases line with
    | nil => exact absurd rfl hne
    | cons u line =>
      refine ⟨u, line ++ 10 :: v :: rest, rfl, fun heq => hbreak (heq ▸ List.mem_cons_self), ?_, ?_⟩
      · exact unbroken_append hbreak (unbroken_line hv hunbroken)
      · rw [show u :: (line ++ 10 :: v :: rest) = (u :: line ++ [10]) ++ (v :: rest) by simp,
          List.getLast?_append_of_ne_nil _ (List.cons_ne_nil v rest)]
        exact hlast

/-- Passing over every line that is not the one of the id. -/
theorem fieldAt_lines {lines : List JsString} (h : ∀ line ∈ lines, HeaderLine line) :
    fieldAt idLabel true (joinLines lines) = none ∧
      ∀ last, lines ≠ [] → fieldAt idLabel true (joinLines (lines ++ [last])) = fieldAt idLabel true last := by
  have hlabel : 10 ∉ idLabel := by decide +kernel
  induction lines with
  | nil => exact ⟨rfl, fun last hne => absurd rfl hne⟩
  | cons line lines ih =>
    obtain ⟨hline, hlines⟩ := List.forall_mem_cons.mp h
    cases lines with
    | nil =>
      refine ⟨?_, fun last _ => ?_⟩
      · rw [joinLines_singleton]
        exact fieldAt_last hline.oneLine hline.other
      · show fieldAt idLabel true (joinLines [line, last]) = _
        rw [joinLines_cons, fieldAt_line hline.oneLine hlabel hline.other, joinLines_singleton]
    | cons next lines =>
      obtain ⟨hnone, hlast⟩ := ih hlines
      refine ⟨?_, fun last _ => ?_⟩
      · rw [joinLines_cons, fieldAt_line hline.oneLine hlabel hline.other]
        exact hnone
      · show fieldAt idLabel true (joinLines (line :: next :: (lines ++ [last]))) = _
        rw [joinLines_cons, fieldAt_line hline.oneLine hlabel hline.other]
        exact hlast last (List.cons_ne_nil next lines)

/-! ## The rendered header -/

theorem FieldLine.headerLine {line : JsString} (h : FieldLine line) : HeaderLine (js "- " ++ line) := by
  refine ⟨oneLine_append.mpr ⟨rfl, h.oneLine⟩, nofun, fun hbegins => h.other ?_⟩
  exact (List.prefix_append_right_inj (js "- ")).mp hbegins

/-- What the source lines are: the header of the section and lines that say something of the source. -/
theorem rabiMessageSourceLines_eq {now : LocaleTime} {raw source : RabiMessageSource} {sentAt : JsString}
    {lines : List JsString} (hsource : normalizeRabiMessageSource raw = .ok source)
    (h : rabiMessageSourceLines now source sentAt = .ok lines) :
    ∃ line fields, lines = js "## 消息源" :: line :: fields ∧ ∀ each ∈ line :: fields, HeaderLine each := by
  obtain ⟨time, htime, h⟩ := Fallible.bind_ok.mp h
  cases h
  have hnow : OneLine time := by
    obtain ⟨value, hvalue, rfl⟩ := Fallible.map_ok.mp htime
    cases value with
    | none => exact now.oneLine
    | some text => exact oneLine_optional hvalue text rfl
  have hlabel : IsLabel (sentAtLabel source) := by
    have hboth : IsLabel "投递时间" ∧ IsLabel "消息包发送时间" := ⟨isLabel (by decide +kernel), isLabel (by decide +kernel)⟩
    cases source with
    | agent | agentHook => exact hboth.1
    | plan | messageAdapter | system => exact hboth.2
  have hfields : FieldLines (rabiSourceFields source ++ [some (labelled (sentAtLabel source) time)]) :=
    (fieldLines_source hsource).append (fieldLines_required hlabel hnow fieldLines_nil)
  have hlines : ∀ each ∈ ((rabiSourceFields source ++ [some (labelled (sentAtLabel source) time)]).filterMap id).map
      (js "- " ++ ·), HeaderLine each := by
    intro each heach
    obtain ⟨line, hline, rfl⟩ := List.mem_map.mp heach
    obtain ⟨value, hvalue, hid⟩ := List.mem_filterMap.mp hline
    exact (hfields line (hid ▸ hvalue)).headerLine
  -- the time of the delivery is always there
  have hmem : js "- " ++ labelled (sentAtLabel source) time ∈
      ((rabiSourceFields source ++ [some (labelled (sentAtLabel source) time)]).filterMap id).map (js "- " ++ ·) :=
    List.mem_map_of_mem (List.mem_filterMap.mpr ⟨_, List.mem_append_right _ (List.mem_singleton_self _), rfl⟩)
  cases hmap : ((rabiSourceFields source ++ [some (labelled (sentAtLabel source) time)]).filterMap id).map
      (js "- " ++ ·) with
  | nil =>
    rw [hmap] at hmem
    cases hmem
  | cons line fields =>
    rw [hmap] at hlines
    exact ⟨line, fields, rfl, hlines⟩

/-- The lines of the header, and the one of the id where there is an id. -/
theorem headerText_lines {line : JsString} {fields : List JsString} (h : ∀ each ∈ line :: fields, HeaderLine each)
    {id : Option JsString} (hid : ∀ text, id = some text → OneLine text ∧ text ≠ []) :
    HeaderText (joinLines (js "## 消息源" :: line :: fields ++ id.toList.map (idLabel ++ ·))) id := by
  have hfirst : HeaderLine (js "## 消息源") := ⟨by decide +kernel, nofun, by decide +kernel⟩
  have hall : ∀ each ∈ js "## 消息源" :: line :: fields, HeaderLine each := List.forall_mem_cons.mpr ⟨hfirst, h⟩
  have hidLine : ∀ each ∈ id.toList.map (idLabel ++ ·), OneLine each ∧ each ≠ [] := by
    intro each heach
    obtain ⟨text, htext, rfl⟩ := List.mem_map.mp heach
    obtain ⟨htext, -⟩ := hid text (Option.mem_toList.mp htext)
    exact ⟨oneLine_append.mpr ⟨by decide +kernel, htext⟩, nofun⟩
  have heach : ∀ each ∈ js "## 消息源" :: line :: fields ++ id.toList.map (idLabel ++ ·), OneLine each ∧ each ≠ [] := by
    intro each heach
    rcases List.mem_append.mp heach with hline | hline
    · exact ⟨(hall each hline).oneLine, (hall each hline).nonempty⟩
    · exact hidLine each hline
  obtain ⟨u, rest, hjoin, -, hunbroken, hlast⟩ := unbroken_joinLines heach
  refine ⟨?_, mem_joinLines (by decide) fun each hline => (heach each hline).1.not_mem (by decide), ?_, ?_, ?_⟩
  · show js "## 消息源\n" <+: joinLines (js "## 消息源" :: line :: (fields ++ id.toList.map (idLabel ++ ·)))
    rw [joinLines_cons]
    exact ⟨joinLines (line :: (fields ++ id.toList.map (idLabel ++ ·))), rfl⟩
  · exact (congrArg Unbroken hjoin).mpr hunbroken
  · exact (congrArg (List.getLast? · ≠ some 10) hjoin).mpr hlast
  · obtain ⟨hnone, hsome⟩ := fieldAt_lines hall
    cases id with
    | none =>
      show fieldAt idLabel true (joinLines (js "## 消息源" :: line :: fields ++ [])) = none
      rw [List.append_nil]
      exact hnone
    | some text =>
      obtain ⟨htext, hne⟩ := hid text rfl
      refine (hsome (idLabel ++ text) (List.cons_ne_nil _ _)).trans ?_
      exact fieldAt_value nofun hne (htext.not_mem (by decide))

end RabiRoute.Delivery
