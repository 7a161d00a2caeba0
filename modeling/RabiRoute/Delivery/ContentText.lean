import RabiRoute.Delivery.LineEnds
import RabiRoute.Shared.CleanText

/-!
# The text of the message content

The content starts and ends with something else than white space, and none of its lines is a reserved
header, however often its line ends are read.  So no header of a block starts in it.
-/

namespace RabiRoute.Delivery

open AgentRequests (unixLines)
open JsString (isWhitespace)

structure ContentText (text : JsString) : Prop where
  head : ∃ u rest, text = u :: rest ∧ isWhitespace u = false
  last : ∀ u, text.getLast? = some u → isWhitespace u = false
  lines : ∀ line ∈ Text.split [10] text, isReservedHeader (JsString.trim line) = false

/-! ## Trimming -/

theorem trimEnd_append {u : UInt16} (h : isWhitespace u = true) (s : JsString) :
    JsString.trimEnd (s ++ [u]) = JsString.trimEnd s := by
  unfold JsString.trimEnd
  rw [List.reverse_append]
  show (List.dropWhile isWhitespace (u :: s.reverse)).reverse = _
  rw [List.dropWhile_cons_of_pos h]

theorem trim_append {u : UInt16} (h : isWhitespace u = true) (s : JsString) :
    JsString.trim (s ++ [u]) = JsString.trim s := by
  unfold JsString.trim JsString.trimStart
  rw [List.dropWhile_append]
  split
  case isTrue hempty =>
    rw [List.isEmpty_iff.mp hempty, List.dropWhile_cons_of_pos h]
    rfl
  case isFalse => exact trimEnd_append h _

/-- A text that ends with something else than white space. -/
theorem trimEnd_eq {s : JsString} (h : ∀ u, s.getLast? = some u → isWhitespace u = false) : JsString.trimEnd s = s := by
  unfold JsString.trimEnd
  cases hreverse : s.reverse with
  | nil => rw [List.reverse_eq_nil_iff.mp hreverse]; rfl
  | cons u rest =>
    have hlast : s.getLast? = some u := by rw [List.getLast?_eq_head?_reverse, hreverse]; rfl
    rw [List.dropWhile_cons_of_neg (by simp [h u hlast]), ← hreverse, List.reverse_reverse]

theorem last_trimEnd (s : JsString) (u : UInt16) (h : (JsString.trimEnd s).getLast? = some u) :
    isWhitespace u = false := by
  unfold JsString.trimEnd at h
  rw [List.getLast?_reverse] at h
  cases hdrop : s.reverse.dropWhile isWhitespace with
  | nil =>
    rw [hdrop] at h
    cases h
  | cons v rest =>
    rw [hdrop] at h
    obtain rfl : v = u := Option.some.inj h
    exact JsString.headed_trimStart s.reverse v rest hdrop

/-! ## Reading the line ends -/

theorem lines_unixLines (text : JsString) :
    List.Forall₂ (fun line line' => JsString.trim line = JsString.trim line' ∧ (line = line' ∨ line = line' ++ [13]))
      (Text.split [10] text) (Text.split [10] (unixLines text)) := by
  have hsame (lines : List JsString) : List.Forall₂ (fun line line' =>
      JsString.trim line = JsString.trim line' ∧ (line = line' ∨ line = line' ++ [13])) lines lines :=
    List.forall₂_same.mpr fun _ _ => ⟨rfl, .inl rfl⟩
  fun_induction unixLines text with
  | case1 => exact hsame _
  | case2 u => exact hsame _
  | case3 u v rest hpair ih =>
    rw [Bool.and_eq_true, decide_eq_true_eq, decide_eq_true_eq] at hpair
    rw [hpair.1, hpair.2, split_unit (by decide), split_break, split_break]
    exact .cons ⟨rfl, .inr rfl⟩ ih
  | case4 u v rest hpair ih =>
    by_cases hu : u = 10
    · rw [hu, split_break, split_break]
      exact .cons ⟨rfl, .inl rfl⟩ ih
    · rw [split_unit hu, split_unit hu]
      generalize Text.split [10] (v :: rest) = lines at ih ⊢
      generalize Text.split [10] (unixLines (v :: rest)) = lines' at ih ⊢
      cases ih with
      | nil => exact .nil
      | cons hfirst hrest =>
        refine .cons ?_ hrest
        rcases hfirst.2 with rfl | rfl
        · exact ⟨rfl, .inl rfl⟩
        · exact ⟨@trim_append 13 (by decide) (_ :: _), .inr rfl⟩

theorem not_break {u : UInt16} (h : isWhitespace u = false) : u ≠ 10 ∧ u ≠ 13 := by
  constructor
  · rintro rfl
    cases h
  · rintro rfl
    cases h

theorem ContentText.unixLines {text : JsString} (h : ContentText text) : ContentText (unixLines text) := by
  obtain ⟨u, rest, htext, hu⟩ := h.head
  refine ⟨⟨u, AgentRequests.unixLines rest, ?_, hu⟩, fun v hv => h.last v (getLast?_unixLines text ▸ hv), ?_⟩
  · rw [htext, unixLines_cons (not_break hu).2]
  · intro line hline
    obtain ⟨i, hi, rfl⟩ := List.getElem_of_mem hline
    have hforall := lines_unixLines text
    have hi' : i < (Text.split [10] text).length := hforall.length_eq ▸ hi
    have htrim : JsString.trim (Text.split [10] text)[i] = JsString.trim (Text.split [10] (AgentRequests.unixLines text))[i] :=
      (hforall.get hi' hi).1
    rw [← htrim]
    exact h.lines _ (List.getElem_mem hi')

/-! ## No header starts in the content -/

/-- The header of a block after an empty line, and what follows it. -/
def blockHeader (label : JsString) (more : JsString) : JsString := 10 :: 10 :: (label ++ 10 :: more)

theorem ContentText.clear {text rest label more : JsString} (h : ContentText text) (hlabel : 10 ∉ label)
    (hreserved : isReservedHeader (JsString.trim label) = true) (hrest : rest = [] ∨ rest.head? = some 10) :
    Text.Clear (blockHeader label more) text rest := by
  intro a b hab hb hbegins
  obtain ⟨w, hw⟩ := hbegins
  have hlast : b.getLast? = text.getLast? := by rw [hab, List.getLast?_append_of_ne_nil a hb]
  -- the label would be a line of the text
  have hline (after : JsString) (hb : b = 10 :: 10 :: (label ++ after)) (hafter : after = [] ∨ after.head? = some 10) :
      False := by
    have hmem : label ∈ Text.split [10] text := by
      rw [hab, hb, show a ++ 10 :: 10 :: (label ++ after) = (a ++ [10]) ++ 10 :: (label ++ after) by simp]
      exact mem_split hlabel hafter
    rw [h.lines label hmem] at hreserved
    cases hreserved
  have hsplit : (10 :: 10 :: label) ++ (10 :: (more ++ w)) = b ++ rest := by
    rw [← hw]
    simp [blockHeader]
  rcases List.append_eq_append_iff.mp hsplit with ⟨after, hafter, hmore⟩ | ⟨missing, hmissing, hfound⟩
  · refine hline after hafter ?_
    cases after with
    | nil => exact .inl rfl
    | cons v after => exact .inr (congrArg some (List.cons.inj hmore).1.symm)
  · cases missing with
    | nil =>
      rw [List.append_nil] at hmissing
      exact hline [] (by rw [List.append_nil, hmissing]) (.inl rfl)
    | cons v missing =>
      have hv : v = 10 := by
        rw [hfound] at hrest
        simpa using hrest
      rw [hv] at hmissing
      -- the text would end in a line feed, or the label would have one
      cases b with
      | nil => exact hb rfl
      | cons x b =>
        obtain ⟨hx, htail⟩ := List.cons.inj hmissing
        cases b with
        | nil =>
          have hbreak := h.last x (hlast.symm.trans rfl)
          rw [← hx] at hbreak
          cases hbreak
        | cons y b =>
          obtain ⟨-, htail⟩ := List.cons.inj htail
          apply hlabel
          rw [htail]
          exact List.mem_append_right b List.mem_cons_self

/-! ## The normalized content -/

theorem joinLines_split (text : JsString) : joinLines (Text.split [10] text) = text := by
  unfold joinLines
  induction text with
  | nil => rfl
  | cons u text ih =>
    cases hlines : Text.split [10] text with
    | nil => exact absurd (congrArg List.length hlines) (Nat.ne_of_gt Text.length_split_pos)
    | cons line lines =>
      rw [hlines] at ih
      by_cases hu : u = 10
      · rw [hu, split_break, hlines, List.intercalate_cons_cons, ih]
        rfl
      · rw [split_unit hu, hlines]
        show [10].intercalate ((u :: line) :: lines) = _
        cases lines with
        | nil =>
          rw [List.intercalate_singleton] at ih ⊢
          rw [ih]
        | cons next lines =>
          rw [List.intercalate_cons_cons] at ih ⊢
          exact congrArg (u :: ·) ih

theorem joinLines_concat (init : List JsString) (last : JsString) :
    joinLines (init ++ [last]) = init.flatMap (· ++ [10]) ++ last := by
  unfold joinLines
  induction init with
  | nil => exact List.intercalate_singleton
  | cons line init ih =>
    cases init with
    | nil =>
      show [10].intercalate [line, last] = _
      rw [List.intercalate_cons_cons, List.intercalate_singleton]
      simp
    | cons next init =>
      show [10].intercalate (line :: next :: (init ++ [last])) = _
      rw [List.intercalate_cons_cons, List.flatMap_cons, show next :: (init ++ [last]) = next :: init ++ [last] from rfl,
        ih]
      simp

theorem head_joinLines (u : UInt16) (line : JsString) (lines : List JsString) :
    ∃ rest, joinLines ((u :: line) :: lines) = u :: rest := by
  unfold joinLines
  cases lines with
  | nil => exact ⟨line, List.intercalate_singleton⟩
  | cons next lines => exact ⟨_, List.intercalate_cons_cons⟩

/-- A text of lines ends as its last line does. -/
theorem last_joinLines {init : List JsString} {last : JsString} (h : ∀ u, (joinLines (init ++ [last])).getLast? = some u
    → u ≠ 10) (hne : joinLines (init ++ [last]) ≠ []) : last ≠ [] := by
  rintro rfl
  rw [joinLines_concat, List.append_nil] at h hne
  rcases List.eq_nil_or_concat init with rfl | ⟨before, line, rfl⟩
  · exact hne rfl
  · refine h 10 ?_ rfl
    rw [List.concat_eq_append, List.flatMap_append]
    show (_ ++ ((line ++ [10]) ++ [])).getLast? = some 10
    simp

theorem trim_fixed {text : JsString} (h : JsString.trim text = text) :
    (∀ u rest, text = u :: rest → isWhitespace u = false) ∧ ∀ u, text.getLast? = some u → isWhitespace u = false := by
  constructor
  · rw [← h]
    exact JsString.headed_trim text
  · intro u hu
    rw [← h] at hu
    exact last_trimEnd _ u hu

theorem trim_stripPasses (passes : Nat) {text : JsString} (h : JsString.trim text = text) :
    JsString.trim (stripPasses passes text) = stripPasses passes text := by
  induction passes generalizing text with
  | zero => exact h
  | succ passes ih =>
    unfold stripPasses
    cases hpass : stripPass text with
    | none => exact h
    | some stripped =>
      apply ih
      unfold stripPass at hpass
      split at hpass
      · obtain ⟨_, -, rfl⟩ := Option.map_eq_some_iff.mp hpass
        exact JsString.trim_trim _
      · split at hpass
        · rw [← Option.some.inj hpass]
          exact JsString.trim_trim _
        · cases hpass

theorem escapeHeader_reserved (line : JsString) : isReservedHeader (JsString.trim (escapeHeader line)) = false := by
  unfold escapeHeader
  split
  case isFalse h => simpa using h
  case isTrue h =>
    have hquoted : ∃ rest, JsString.trim (js "> " ++ line) = 62 :: rest := by
      show ∃ rest, JsString.trimEnd (JsString.trimStart (62 :: 32 :: line)) = 62 :: rest
      rw [show JsString.trimStart (62 :: 32 :: line) = 62 :: 32 :: line from List.dropWhile_cons_of_neg (by decide)]
      have hne : JsString.trimEnd (62 :: 32 :: line) ≠ [] := by
        have hheaded : JsString.Headed (62 :: 32 :: line) := by
          intro u rest heq
          rw [← (List.cons.inj heq).1]
          decide
        have hne := hheaded.trim_ne_nil (List.cons_ne_nil 62 _)
        unfold JsString.trim at hne
        rwa [hheaded.trimStart] at hne
      obtain ⟨more, hmore⟩ := JsString.trimEnd_isPrefix (62 :: 32 :: line)
      cases htrim : JsString.trimEnd (62 :: 32 :: line) with
      | nil => exact absurd htrim hne
      | cons u rest =>
        rw [htrim] at hmore
        exact ⟨rest, by rw [(List.cons.inj hmore).1]⟩
    obtain ⟨rest, hrest⟩ := hquoted
    rw [hrest]
    unfold isReservedHeader
    have hother (more : JsString) : (62 :: rest == 35 :: more) = false := by
      rw [beq_eq_false_iff_ne]
      exact fun h => absurd (List.cons.inj h).1 (by decide)
    have hsource : (62 :: rest == js "## 消息源") = false := hother _
    have hcontent : (62 :: rest == js "## 消息内容") = false := hother _
    rw [hsource, hcontent]
    rfl

theorem escapeHeader_eq (line : JsString) : escapeHeader line = line ∨ escapeHeader line = js "> " ++ line := by
  unfold escapeHeader
  split
  · exact .inr rfl
  · exact .inl rfl

/-- The content of every delivery whose headers are escaped. -/
theorem contentText_normalize {value : JsString} (hne : normalizeRabiMessageContent value true ≠ []) :
    ContentText (normalizeRabiMessageContent value true) := by
  have hcontent : normalizeRabiMessageContent value true =
      joinLines ((Text.split [10] (AgentRequests.unixLines (stripLeadingRabiEnvelope value))).map escapeHeader) := rfl
  have htrim : JsString.trim (stripLeadingRabiEnvelope value) = stripLeadingRabiEnvelope value :=
    trim_stripPasses 3 (JsString.trim_trim value)
  rw [hcontent] at hne ⊢
  generalize stripLeadingRabiEnvelope value = text at htrim hne ⊢
  obtain ⟨hfirst, hend⟩ := trim_fixed htrim
  have hjoin := joinLines_split (AgentRequests.unixLines text)
  have hlines := split_lines (AgentRequests.unixLines text)
  have hsplit : Text.split [10] (joinLines ((Text.split [10] (AgentRequests.unixLines text)).map escapeHeader)) =
      (Text.split [10] (AgentRequests.unixLines text)).map escapeHeader := by
    apply split_joinLines
    · intro hnil
      rw [hnil] at hne
      exact hne rfl
    · intro line hline
      obtain ⟨plain, hplain, rfl⟩ := List.mem_map.mp hline
      rcases escapeHeader_eq plain with heq | heq
      · rw [heq]
        exact hlines plain hplain
      · rw [heq, List.mem_append, not_or]
        exact ⟨by decide, hlines plain hplain⟩
  cases text with
  | nil => exact absurd (by decide) hne
  | cons u rest =>
    have hu := hfirst u rest rfl
    have hunix : AgentRequests.unixLines (u :: rest) = u :: AgentRequests.unixLines rest := unixLines_cons (not_break hu).2 rest
    refine ⟨?_, ?_, ?_⟩
    · rw [hunix, split_unit (not_break hu).1]
      cases hall : Text.split [10] (AgentRequests.unixLines rest) with
      | nil => exact absurd (congrArg List.length hall) (Nat.ne_of_gt Text.length_split_pos)
      | cons line lines =>
        show ∃ v more, joinLines (escapeHeader (u :: line) :: lines.map escapeHeader) = v :: more ∧ _
        rcases escapeHeader_eq (u :: line) with heq | heq
        · rw [heq]
          obtain ⟨more, hmore⟩ := head_joinLines u line (lines.map escapeHeader)
          exact ⟨u, more, hmore, hu⟩
        · rw [heq]
          obtain ⟨more, hmore⟩ := head_joinLines 62 (32 :: u :: line) (lines.map escapeHeader)
          exact ⟨62, more, hmore, by decide⟩
    · rcases List.eq_nil_or_concat (Text.split [10] (AgentRequests.unixLines (u :: rest))) with hnil | ⟨init, last, hlast⟩
      · exact absurd (congrArg List.length hnil) (Nat.ne_of_gt Text.length_split_pos)
      · rw [List.concat_eq_append] at hlast
        rw [hlast] at hjoin ⊢
        have hlastUnit (v : UInt16) (hv : (joinLines (init ++ [last])).getLast? = some v) : isWhitespace v = false := by
          rw [hjoin, getLast?_unixLines] at hv
          exact hend v hv
        have hlastLine : last ≠ [] :=
          last_joinLines (fun v hv => (not_break (hlastUnit v hv)).1) (by rw [hjoin, hunix]; exact List.cons_ne_nil u _)
        rw [joinLines_concat, List.getLast?_append_of_ne_nil _ hlastLine] at hlastUnit
        rw [List.map_append, List.map_singleton, joinLines_concat]
        intro v hv
        rcases escapeHeader_eq last with heq | heq
        · rw [heq, List.getLast?_append_of_ne_nil _ hlastLine] at hv
          exact hlastUnit v hv
        · rw [heq, ← List.append_assoc, List.getLast?_append_of_ne_nil _ hlastLine] at hv
          exact hlastUnit v hv
    · rw [hsplit]
      intro line hline
      obtain ⟨plain, -, rfl⟩ := List.mem_map.mp hline
      exact escapeHeader_reserved plain

end RabiRoute.Delivery
