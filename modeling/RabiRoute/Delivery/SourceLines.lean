import RabiRoute.Delivery.LineEnds
import RabiRoute.Shared.CleanText
import RabiRoute.Shared.Fallible

/-!
# The lines of a message source

Every field of a normalized source is a text on one line, and none of the lines that they make can be
taken for the line of a delivery id.
-/

namespace RabiRoute.Delivery

open JsString (trim trimStart trimEnd isWhitespace)

def OneLine (text : JsString) : Prop := text.any isLineTerminator = false

instance : DecidablePred OneLine := fun _ ↦ inferInstanceAs (Decidable (_ = _))

/-- A field that is there is on one line. -/
def OneLine? (value : Option JsString) : Prop := ∀ text, value = some text → OneLine text

theorem oneLine_append {a b : JsString} : OneLine (a ++ b) ↔ OneLine a ∧ OneLine b := by
  unfold OneLine
  rw [List.any_append, Bool.or_eq_false_iff]

theorem oneLine_cons {u : UInt16} {text : JsString} :
    OneLine (u :: text) ↔ isLineTerminator u = false ∧ OneLine text := by
  unfold OneLine
  rw [List.any_cons, Bool.or_eq_false_iff]

theorem OneLine.sublist {a b : JsString} (h : OneLine b) (hab : List.Sublist a b) : OneLine a := by
  unfold OneLine at h ⊢
  rw [List.any_eq_false] at h ⊢
  exact fun u hu => h u (hab.subset hu)

theorem trim_sublist (text : JsString) : List.Sublist (trim text) text :=
  (JsString.trimEnd_isPrefix _).sublist.trans (List.dropWhile_suffix _).sublist

theorem OneLine.trim {text : JsString} (h : OneLine text) : OneLine (trim text) := h.sublist (trim_sublist text)

theorem OneLine.not_mem {text : JsString} {u : UInt16} (h : OneLine text) (hu : isLineTerminator u = true) : u ∉ text :=
  fun hmem => absurd hu (List.any_eq_false.mp h u hmem)

/-! ## Checked fields -/

theorem oneLine_checkSourceText {text value : JsString} {field : String} {maxLength : Nat}
    (h : checkSourceText text field maxLength = .ok value) : OneLine value := by
  unfold checkSourceText at h
  split at h
  · cases h
  · split at h
    · cases h
    · next hline =>
        cases h
        simpa [OneLine] using hline

theorem oneLine_required {text value : JsString} {field : String} {maxLength : Nat}
    (h : requiredSourceText text field maxLength = .ok value) : OneLine value := by
  unfold requiredSourceText at h
  split at h
  · cases h
  · exact oneLine_checkSourceText h

theorem oneLine_optional {text value : Option JsString} {field : String} {maxLength : Nat}
    (h : optionalSourceText text field maxLength = .ok value) : OneLine? value := by
  intro line hline
  cases text with
  | none =>
    cases h
    cases hline
  | some text =>
    unfold optionalSourceText at h
    simp only at h
    split at h
    · cases h
      cases hline
    · obtain ⟨checked, hchecked, hsome⟩ := Fallible.map_ok.mp h
      rw [← hsome] at hline
      cases hline
      exact oneLine_checkSourceText hchecked

structure AgentIdentity.OneLines (identity : AgentIdentity) : Prop where
  agentAdapter : OneLine identity.agentAdapter
  agentType : OneLine? identity.agentType
  sessionName : OneLine identity.sessionName
  sessionId : OneLine identity.sessionId
  workspace : OneLine? identity.workspace

theorem normalizeAgentIdentity_oneLines {raw identity : AgentIdentity} {field : String}
    (h : normalizeAgentIdentity raw field = .ok identity) : identity.OneLines := by
  unfold normalizeAgentIdentity at h
  obtain ⟨rawAdapter, hadapter, h⟩ := Fallible.bind_ok.mp h
  cases hparse : parseAgentAdapterType rawAdapter with
  | none =>
    rw [hparse] at h
    cases h
  | some agentAdapter =>
    have hline : agentAdapter = rawAdapter := by
      unfold parseAgentAdapterType at hparse
      split at hparse
      · cases hparse
      · split at hparse
        · exact (Option.some.inj hparse).symm
        · cases hparse
    rw [hparse] at h
    obtain ⟨agentType, htype, h⟩ := Fallible.bind_ok.mp h
    obtain ⟨sessionName, hname, h⟩ := Fallible.bind_ok.mp h
    obtain ⟨sessionId, hid, h⟩ := Fallible.bind_ok.mp h
    obtain ⟨workspace, hworkspace, h⟩ := Fallible.bind_ok.mp h
    cases h
    exact ⟨hline ▸ oneLine_required hadapter, oneLine_optional htype, oneLine_required hname, oneLine_required hid,
      oneLine_optional hworkspace⟩

/-! ## Lines of fields -/

/-- A line that is not taken for the line of a delivery id. -/
structure FieldLine (line : JsString) : Prop where
  oneLine : OneLine line
  other : ¬js "投递 ID：" <+: line

/-- Every line that is there. -/
def FieldLines (lines : List (Option JsString)) : Prop := ∀ line, some line ∈ lines → FieldLine line

theorem fieldLines_nil : FieldLines [] := fun _ h => absurd h List.not_mem_nil

theorem fieldLines_some {line : JsString} {lines : List (Option JsString)} (hline : FieldLine line)
    (h : FieldLines lines) : FieldLines (some line :: lines) := by
  intro other hother
  rcases List.mem_cons.mp hother with heq | hrest
  · exact Option.some.inj heq ▸ hline
  · exact h other hrest

theorem FieldLines.append {lines more : List (Option JsString)} (h : FieldLines lines) (hmore : FieldLines more) :
    FieldLines (lines ++ more) := fun line hline => (List.mem_append.mp hline).elim (h line) (hmore line)

/-- The labels that the source lines have; none of them is the label of a delivery id, nor the start of it. -/
def IsLabel (label : String) : Prop := OneLine (js label) ∧ ∀ value, ¬js "投递 ID：" <+: labelled label value

theorem isLabel {label : String} (h : OneLine (js label) ∧
    (js label ++ js "：").take 3 ≠ (js "投递 ID：").take 3 ∧ 2 ≤ (js label).length) : IsLabel label := by
  obtain ⟨hline, htake, hlength⟩ := h
  refine ⟨hline, fun value hbegins => htake ?_⟩
  obtain ⟨rest, hrest⟩ := hbegins
  have hlong : 3 ≤ (js label ++ js "：").length := by
    rw [List.length_append]
    show 3 ≤ (js label).length + 1
    omega
  rw [← List.take_append_of_le_length hlong, List.append_assoc, show js label ++ (js "：" ++ value) = _ from hrest.symm]
  rfl

theorem fieldLine_labelled {label : String} {value : JsString} (hlabel : IsLabel label) (h : OneLine value) :
    FieldLine (labelled label value) := by
  refine ⟨?_, hlabel.2 value⟩
  unfold labelled
  exact oneLine_append.mpr ⟨hlabel.1, oneLine_append.mpr ⟨rfl, h⟩⟩

theorem fieldLines_optional {label : String} {value : Option JsString} {lines : List (Option JsString)}
    (hlabel : IsLabel label) (hvalue : OneLine? value) (h : FieldLines lines) :
    FieldLines (optionalLine label value :: lines) := by
  intro line hline
  rcases List.mem_cons.mp hline with heq | hrest
  · unfold optionalLine at heq
    simp only at heq
    split at heq
    · cases heq
    · rw [Option.some.inj heq]
      refine fieldLine_labelled hlabel ?_
      cases value with
      | none => rfl
      | some text => exact (hvalue text rfl).trim
  · exact h line hrest

theorem fieldLines_required {label : String} {value : JsString} {lines : List (Option JsString)}
    (hlabel : IsLabel label) (hvalue : OneLine value) (h : FieldLines lines) :
    FieldLines (some (labelled label value) :: lines) := fieldLines_some (fieldLine_labelled hlabel hvalue) h

theorem oneLine_endpointName {name : JsString} (h : OneLine name) : OneLine (endpointName name) := by
  unfold endpointName
  split
  · rfl
  · exact h

/-! ## Lines of sources -/

theorem fieldLines_agent {identity : AgentIdentity} {standalone : Option String} (h : identity.OneLines)
    (hkind : ∀ kind, standalone = some kind → IsLabel ("类型：" ++ kind ++ "｜处理端")) :
    FieldLines (agentSourceLines identity standalone) := by
  have hname := oneLine_endpointName h.agentAdapter
  have hrest : FieldLines [some (labelled "会话" identity.sessionName), some (labelled "会话 ID" identity.sessionId),
      optionalLine "工作目录" identity.workspace] :=
    fieldLines_required (isLabel (by decide +kernel)) h.sessionName <|
      fieldLines_required (isLabel (by decide +kernel)) h.sessionId <|
        fieldLines_optional (isLabel (by decide +kernel)) h.workspace fieldLines_nil
  unfold agentSourceLines
  refine fieldLines_some ?_ ?_
  · cases standalone with
    | none => exact fieldLine_labelled (isLabel (by decide +kernel)) hname
    | some kind => exact fieldLine_labelled (hkind kind rfl) hname
  · split
    · exact fun line hline => hrest line ((List.mem_cons.mp hline).resolve_left nofun)
    · exact fieldLines_optional (isLabel (by decide +kernel)) h.agentType hrest

theorem fieldLines_plan {raw source : RabiPlanMessageSource} (h : normalizePlanSource raw = .ok source) :
    FieldLines (rabiSourceFields (.plan source)) := by
  unfold normalizePlanSource at h
  obtain ⟨planName, hname, h⟩ := Fallible.bind_ok.mp h
  obtain ⟨planId, hid, h⟩ := Fallible.bind_ok.mp h
  have hfields : FieldLines [some (js "消息源类型：计划"), some (labelled "计划名称" planName), some (labelled "计划 ID" planId)] :=
    fieldLines_some ⟨by decide +kernel, by decide +kernel⟩ <|
      fieldLines_required (isLabel (by decide +kernel)) (oneLine_required hname) <|
        fieldLines_required (isLabel (by decide +kernel)) (oneLine_required hid) fieldLines_nil
  cases hraw : raw.sourceAgent with
  | none =>
    rw [hraw] at h
    cases h
    exact hfields.append fieldLines_nil
  | some identity =>
    rw [hraw] at h
    obtain ⟨sourceAgent, hagent, h⟩ := Fallible.bind_ok.mp h
    obtain ⟨normalized, hnormalized, rfl⟩ := Fallible.map_ok.mp hagent
    cases h
    have hlines : FieldLines (agentSourceLines normalized none) :=
      fieldLines_agent (normalizeAgentIdentity_oneLines hnormalized) fun kind hkind => (by cases hkind)
    exact hfields.append hlines

theorem fieldLines_messageAdapter {raw source : RabiMessageAdapterSource}
    (h : normalizeMessageAdapterSource raw = .ok source) : FieldLines (rabiSourceFields (.messageAdapter source)) := by
  unfold normalizeMessageAdapterSource at h
  obtain ⟨messageAdapter, hadapter, h⟩ := Fallible.bind_ok.mp h
  obtain ⟨conversationType, htype, h⟩ := Fallible.bind_ok.mp h
  obtain ⟨conversationId, hconversation, h⟩ := Fallible.bind_ok.mp h
  obtain ⟨messageId, hmessage, h⟩ := Fallible.bind_ok.mp h
  obtain ⟨senderName, hsender, h⟩ := Fallible.bind_ok.mp h
  obtain ⟨senderId, hsenderId, h⟩ := Fallible.bind_ok.mp h
  split at h
  · cases h
  · obtain ⟨conversationName, hname, h⟩ := Fallible.bind_ok.mp h
    obtain ⟨messageGroupId, hgroup, h⟩ := Fallible.bind_ok.mp h
    obtain ⟨routeName, hroute, h⟩ := Fallible.bind_ok.mp h
    obtain ⟨routeId, hrouteId, h⟩ := Fallible.bind_ok.mp h
    cases h
    have hsome {text value : JsString} {field : String} {maxLength : Nat}
        (h : requiredSourceText text field maxLength = .ok value) : OneLine? (some value) :=
      fun line hline => Option.some.inj hline ▸ oneLine_required h
    unfold rabiSourceFields
    exact fieldLines_some ⟨by decide +kernel, by decide +kernel⟩ <|
      fieldLines_required (isLabel (by decide +kernel)) (oneLine_endpointName (oneLine_required hadapter)) <|
      fieldLines_optional (isLabel (by decide +kernel)) (hsome htype) <|
      fieldLines_optional (isLabel (by decide +kernel)) (oneLine_optional hname) <|
      fieldLines_optional (isLabel (by decide +kernel)) (hsome hconversation) <|
      fieldLines_optional (isLabel (by decide +kernel)) (oneLine_optional hsender) <|
      fieldLines_optional (isLabel (by decide +kernel)) (oneLine_optional hsenderId) <|
      fieldLines_optional (isLabel (by decide +kernel)) (hsome hmessage) <|
      fieldLines_optional (isLabel (by decide +kernel)) (oneLine_optional hgroup) <|
      fieldLines_optional (isLabel (by decide +kernel)) (oneLine_optional hroute) <|
      fieldLines_optional (isLabel (by decide +kernel)) (oneLine_optional hrouteId) fieldLines_nil

theorem fieldLines_system {raw source : RabiSystemMessageSource} (h : normalizeSystemSource raw = .ok source) :
    FieldLines (rabiSourceFields (.system source)) := by
  unfold normalizeSystemSource at h
  obtain ⟨eventType, htype, h⟩ := Fallible.bind_ok.mp h
  obtain ⟨eventName, hname, h⟩ := Fallible.bind_ok.mp h
  obtain ⟨eventId, hid, h⟩ := Fallible.bind_ok.mp h
  obtain ⟨actorType, hactorType, h⟩ := Fallible.bind_ok.mp h
  obtain ⟨actorName, hactor, h⟩ := Fallible.bind_ok.mp h
  obtain ⟨actorId, hactorId, h⟩ := Fallible.bind_ok.mp h
  obtain ⟨routeName, hroute, h⟩ := Fallible.bind_ok.mp h
  obtain ⟨routeId, hrouteId, h⟩ := Fallible.bind_ok.mp h
  cases h
  unfold rabiSourceFields
  exact fieldLines_some ⟨by decide +kernel, by decide +kernel⟩ <|
    fieldLines_required (isLabel (by decide +kernel)) (oneLine_required htype) <|
    fieldLines_required (isLabel (by decide +kernel)) (oneLine_required hname) <|
    fieldLines_required (isLabel (by decide +kernel)) (oneLine_required hid) <|
    fieldLines_optional (isLabel (by decide +kernel)) (oneLine_optional hactorType) <|
    fieldLines_optional (isLabel (by decide +kernel)) (oneLine_optional hactor) <|
    fieldLines_optional (isLabel (by decide +kernel)) (oneLine_optional hactorId) <|
    fieldLines_optional (isLabel (by decide +kernel)) (oneLine_optional hroute) <|
    fieldLines_optional (isLabel (by decide +kernel)) (oneLine_optional hrouteId) fieldLines_nil

/-- The fields of every normalized source. -/
theorem fieldLines_source {raw source : RabiMessageSource} (h : normalizeRabiMessageSource raw = .ok source) :
    FieldLines (rabiSourceFields source) := by
  cases raw with
  | agent identity =>
    obtain ⟨normalized, hnormalized, rfl⟩ := Fallible.map_ok.mp h
    have hkind : IsLabel ("类型：" ++ "Agent" ++ "｜处理端") := isLabel (by decide +kernel)
    exact fieldLines_agent (normalizeAgentIdentity_oneLines hnormalized) fun kind h => Option.some.inj h ▸ hkind
  | agentHook identity =>
    obtain ⟨normalized, hnormalized, rfl⟩ := Fallible.map_ok.mp h
    have hkind : IsLabel ("类型：" ++ "AgentHook" ++ "｜处理端") := isLabel (by decide +kernel)
    exact fieldLines_agent (normalizeAgentIdentity_oneLines hnormalized) fun kind h => Option.some.inj h ▸ hkind
  | plan source =>
    obtain ⟨normalized, hnormalized, rfl⟩ := Fallible.map_ok.mp h
    exact fieldLines_plan hnormalized
  | messageAdapter source =>
    obtain ⟨normalized, hnormalized, rfl⟩ := Fallible.map_ok.mp h
    exact fieldLines_messageAdapter hnormalized
  | system source =>
    obtain ⟨normalized, hnormalized, rfl⟩ := Fallible.map_ok.mp h
    exact fieldLines_system hnormalized

end RabiRoute.Delivery
