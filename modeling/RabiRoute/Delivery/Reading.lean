import RabiRoute.Delivery.Prompt

/-!
# Reading a prompt

What the reader of the delivery id sees in a prompt: the id in the header, and for the rest only what
follows the content, as no marker that it looks for starts before that.
-/

namespace RabiRoute.Delivery

open AgentRequests (unixLines)
open JsString (isWhitespace)

/-- A header, the content and what follows it. -/
def promptText (header content tail : JsString) : JsString := header ++ (contentHeader ++ (content ++ tail))

/-- What may follow the content. -/
def FollowsContent (tail : JsString) : Prop := tail = [] ∨ tail.head? = some 10

theorem FollowsContent.unixLines {tail : JsString} (h : FollowsContent tail) : FollowsContent (unixLines tail) := by
  cases tail with
  | nil => exact .inl rfl
  | cons u tail =>
    have hu : u = 10 := by simpa [FollowsContent] using h
    rw [hu, unixLines_cons (by decide)]
    exact .inr rfl

theorem FollowsContent.ofBegin {tail before : JsString} (h : FollowsContent tail) (hbegins : before <+: tail) :
    FollowsContent before := by
  obtain ⟨rest, rfl⟩ := hbegins
  cases before with
  | nil => exact .inl rfl
  | cons u before => exact .inr (by simpa [FollowsContent] using h)

/-- Reading the line ends of a prompt changes its content and what follows it. -/
theorem unixLines_promptText {header content tail : JsString} {id : Option JsString} (hheader : HeaderText header id)
    (hcontent : ContentText content) :
    unixLines (promptText header content tail) = promptText header (unixLines content) (unixLines tail) := by
  have hlast : header.getLast? ≠ some 13 := fun h => hheader.unix (List.mem_of_getLast? h)
  have hmark : contentHeader.getLast? ≠ some 13 := by decide +kernel
  have hend : content.getLast? ≠ some 13 := fun h => (not_break (hcontent.last 13 h)).2 rfl
  unfold promptText
  rw [unixLines_append hlast, unixLines_append hmark, unixLines_append hend, unixLines_eq hheader.unix,
    unixLines_eq (show 13 ∉ contentHeader by decide +kernel)]

/-! ## Markers -/

/-- No block header starts before what follows the content. -/
theorem clear_promptText {header content tail label more : JsString} {id : Option JsString}
    (hheader : HeaderText header id) (hcontent : ContentText content) (htail : FollowsContent tail) (hlabel : 10 ∉ label)
    (hreserved : isReservedHeader (JsString.trim label) = true) (hfirst : label.head? = some 91) :
    Text.Clear (blockHeader label more) (header ++ (contentHeader ++ content)) tail := by
  have hmark : Text.Clear (blockHeader label more) contentHeader (content ++ tail) := by
    obtain ⟨v, rest, hhead, hv⟩ := hcontent.head
    have hv10 := (not_break hv).1
    cases label with
    | nil => cases hfirst
    | cons u label =>
      obtain rfl : u = 91 := Option.some.inj hfirst
      have hheader : contentHeader = [10, 10, 35, 35, 32, 28040, 24687, 20869, 23481, 10] := by decide +kernel
      rw [hheader, hhead]
      show Text.Clear (10 :: 10 :: 91 :: (label ++ 10 :: more)) _ _
      simp [Text.clear_cons, List.cons_prefix_cons, Text.Clear.nil, Ne.symm hv10]
  refine Text.Clear.append ?_ (hmark.append (hcontent.clear hlabel hreserved htail))
  exact Text.clear_of_pairs hheader.unbroken hheader.last

theorem replyMarker_eq : replyMarker = blockHeader (js "[回传参数]") [] := by decide +kernel

theorem clear_replyMarker {header content tail : JsString} {id : Option JsString} (hheader : HeaderText header id)
    (hcontent : ContentText content) (htail : FollowsContent tail) :
    Text.Clear replyMarker (header ++ (contentHeader ++ content)) tail := by
  rw [replyMarker_eq]
  exact clear_promptText hheader hcontent htail (by decide +kernel) (by decide +kernel) (by decide +kernel)

theorem promptText_eq (header content tail : JsString) :
    promptText header content tail = (header ++ (contentHeader ++ content)) ++ tail := by
  unfold promptText
  simp only [List.append_assoc]

/-- Parts that come before a text without starting the marker do not change the reply that is read. -/
theorem replyId_append {front tail : JsString} (h : Text.Clear replyMarker front tail) :
    replyId (front ++ tail) = replyId tail := by
  unfold replyId
  rw [Text.split_clear h]
  cases Text.split replyMarker tail with
  | nil => rfl
  | cons first parts =>
    cases parts with
    | nil => rfl
    | cons second parts =>
      cases parts with
      | nil => rfl
      | cons third parts => rfl

/-- The id in the header comes first, then the reply parameters. -/
theorem currentEnvelopeDeliveryId_promptText {header content tail : JsString} {id : Option JsString}
    (hheader : HeaderText header id) (hcontent : ContentText content) (htail : FollowsContent tail) :
    currentEnvelopeDeliveryId (promptText header content tail) =
      (id.filter isDeliveryId).or (replyId (unixLines tail)) := by
  have hunix := hcontent.unixLines
  have hstart : js "## 消息源\n" <+: promptText header (unixLines content) (unixLines tail) :=
    hheader.start.trans (List.prefix_append _ _)
  have hend : Text.indexOf (js "\n\n## 消息内容\n") (promptText header (unixLines content) (unixLines tail)) =
      some header.length :=
    Text.indexOf_first (Text.clear_of_pairs hheader.unbroken hheader.last)
  have hreply : replyId (promptText header (unixLines content) (unixLines tail)) = replyId (unixLines tail) := by
    rw [promptText_eq]
    exact replyId_append (clear_replyMarker hheader hunix htail.unixLines)
  have hfield : fieldAt (js "- 投递 ID：") true ((promptText header (unixLines content) (unixLines tail)).take header.length) =
      id := by
    unfold promptText
    rw [List.take_left]
    exact hheader.field
  unfold currentEnvelopeDeliveryId
  rw [unixLines_promptText hheader hcontent]
  simp only
  rw [if_pos hstart]
  unfold envelopeId
  rw [hend]
  simp only
  rw [hfield, hreply]
  cases id.filter isDeliveryId with
  | none => rfl
  | some text => rfl

/-! ## The suffix of the historical transport -/

/-- No letter: the only unit whose lower case it is, is itself. -/
theorem lower_eq {u v : UInt16} (h : JsString.lower u = v) (hv : ¬(97 ≤ v ∧ v ≤ 122)) : u = v := by
  unfold JsString.lower at h
  split at h
  case isTrue hletter =>
    exfalso
    apply hv
    rw [← h]
    have hlo : 65 ≤ u.toNat := UInt16.le_iff_toNat_le.mp hletter.1
    have hhi : u.toNat ≤ 90 := UInt16.le_iff_toNat_le.mp hletter.2
    constructor
    · rw [UInt16.le_iff_toNat_le, UInt16.toNat_add]
      show 97 ≤ (u.toNat + 32) % 65536
      omega
    · rw [UInt16.le_iff_toNat_le, UInt16.toNat_add]
      show (u.toNat + 32) % 65536 ≤ 122
      omega
  case isFalse => exact h

theorem prefix_of_lower {front text more : JsString} (h : text.map JsString.lower = front ++ more)
    (hfront : ∀ u ∈ front, ¬(97 ≤ u ∧ u ≤ 122)) : front <+: text := by
  induction front generalizing text with
  | nil => exact List.nil_prefix
  | cons u front ih =>
    rw [List.forall_mem_cons] at hfront
    cases text with
    | nil => cases h
    | cons v text =>
      obtain ⟨hfirst, hrest⟩ := List.cons.inj h
      rw [lower_eq hfirst hfront.1]
      exact List.cons_prefix_cons.mpr ⟨rfl, ih hrest hfront.2⟩

/-- The suffix has a fixed length. -/
def suffixLength : Nat := transportSuffixHead.length + 36

/-- A text that is a suffix of the historical transport. -/
def isTransportSuffix (text : JsString) : Prop :=
  text.length = suffixLength ∧
    (text.take transportSuffixHead.length).map JsString.lower = transportSuffixHead.map JsString.lower ∧
    isUuid (text.drop transportSuffixHead.length)

instance : DecidablePred isTransportSuffix := fun _ ↦ inferInstanceAs (Decidable (_ ∧ _))

theorem transportSuffix_eq (text : JsString) :
    transportSuffix text = if isTransportSuffix (text.drop (text.length - suffixLength)) then
      some (text.take (text.length - suffixLength),
        (text.drop (text.length - suffixLength)).drop transportSuffixHead.length) else none := rfl

theorem transportSuffix_iff {text before id : JsString} :
    transportSuffix text = some (before, id) ↔
      ∃ suffix, text = before ++ suffix ∧ isTransportSuffix suffix ∧ id = suffix.drop transportSuffixHead.length := by
  rw [transportSuffix_eq]
  constructor
  · intro h
    split at h
    case isFalse => cases h
    case isTrue hsuffix =>
      cases h
      exact ⟨_, (List.take_append_drop _ text).symm, hsuffix, rfl⟩
  · rintro ⟨suffix, rfl, hsuffix, rfl⟩
    have hlength : (before ++ suffix).length - suffixLength = before.length := by
      rw [List.length_append, hsuffix.1, Nat.add_sub_cancel]
    rw [hlength, List.drop_left, List.take_left, if_pos hsuffix]

theorem isTransportSuffix.marker {suffix : JsString} (h : isTransportSuffix suffix) :
    blockHeader transportLabel [] <+: suffix := by
  have hmarker : transportSuffixHead.map JsString.lower =
      blockHeader transportLabel [] ++ (js "deliveryid: ") := by decide +kernel
  have htake := prefix_of_lower (h.2.1.trans hmarker) (JsString.forall_of_all (by decide +kernel))
  exact htake.trans (List.take_prefix _ _)

/-- A suffix of a prompt lies in what follows its content. -/
theorem transportSuffix_append {front tail : JsString} (h : Text.Clear (blockHeader transportLabel []) front tail) :
    transportSuffix (front ++ tail) = (transportSuffix tail).map fun found => (front ++ found.1, found.2) := by
  cases htail : transportSuffix tail with
  | some found =>
    obtain ⟨suffix, htext, hsuffix, hid⟩ := transportSuffix_iff.mp htail
    refine transportSuffix_iff.mpr ⟨suffix, ?_, hsuffix, hid⟩
    rw [htext, List.append_assoc]
  | none =>
    cases hall : transportSuffix (front ++ tail) with
    | none => rfl
    | some found =>
      exfalso
      obtain ⟨suffix, htext, hsuffix, hid⟩ := transportSuffix_iff.mp hall
      rcases List.append_eq_append_iff.mp htext.symm with ⟨more, hfront, hsuffix'⟩ | ⟨before, hbefore, htail'⟩
      · cases more with
        | nil =>
          -- the suffix is all of the tail
          rw [List.nil_append] at hsuffix'
          have hsome := transportSuffix_iff.mpr ⟨suffix, (show tail = [] ++ suffix from hsuffix'.symm), hsuffix, hid⟩
          rw [htail] at hsome
          cases hsome
        | cons u more => exact h _ _ hfront (List.cons_ne_nil u more) (hsuffix' ▸ hsuffix.marker)
      · have hsome := transportSuffix_iff.mpr ⟨suffix, htail', hsuffix, hid⟩
        rw [htail] at hsome
        cases hsome

/-! ## The units of an id -/

theorem mem_isUuid {text : JsString} (h : isUuid text) : ∀ u ∈ text, isHexDigit (JsString.lower u) = true ∨ u = 45 := by
  intro u hu
  unfold isUuid at h
  rw [Bool.and_eq_true, List.all_eq_true] at h
  obtain ⟨i, hi⟩ := List.mem_iff_getElem?.mp hu
  have hunit := h.2 (u, i) (List.mk_mem_zipIdx_iff_getElem?.mpr hi)
  simp only at hunit
  split at hunit
  · exact .inr (by simpa using hunit)
  · exact .inl hunit

theorem not_mem_isUuid {text : JsString} {u : UInt16} (h : isUuid text) (hhex : isHexDigit (JsString.lower u) = false)
    (hne : u ≠ 45) : u ∉ text := by
  intro hu
  rcases mem_isUuid h u hu with hdigit | heq
  · rw [hhex] at hdigit
    cases hdigit
  · exact hne heq

/-- An id is not empty, and it is a text on one line. -/
theorem isDeliveryId_text {text : JsString} (h : isDeliveryId text = true) : OneLine text ∧ text ≠ [] := by
  have hterminator (u : UInt16) (hu : isLineTerminator u = true) :
      isHexDigit (JsString.lower u) = false ∧ isHexDigit u = false ∧ u ≠ 45 ∧ u ∉ js "agent-" := by
    unfold isLineTerminator at hu
    simp only [Bool.or_eq_true, beq_iff_eq] at hu
    rcases hu with ((rfl | rfl) | rfl) | rfl <;> decide +kernel
  unfold isDeliveryId at h
  rw [Bool.or_eq_true] at h
  rcases h with huuid | hscoped
  · constructor
    · unfold OneLine
      rw [List.any_eq_false]
      intro u hmem hu
      exact not_mem_isUuid huuid (hterminator u hu).1 (hterminator u hu).2.2.1 hmem
    · rintro rfl
      cases huuid
  · unfold isSourceScopedId at hscoped
    rw [Bool.and_eq_true, Bool.and_eq_true, List.all_eq_true] at hscoped
    obtain ⟨⟨hbegins, -⟩, hdigits⟩ := hscoped
    obtain ⟨rest, hrest⟩ := List.isPrefixOf_iff_prefix.mp hbegins
    constructor
    · unfold OneLine
      rw [List.any_eq_false]
      intro u hmem hu
      rw [← hrest, List.mem_append] at hmem
      rcases hmem with hagent | hdigit
      · exact (hterminator u hu).2.2.2 hagent
      · have hdrop : rest = text.drop 6 := by rw [← hrest]; rfl
        have hhex := hdigits u (hdrop ▸ hdigit)
        rw [(hterminator u hu).2.1] at hhex
        cases hhex
    · rw [← hrest]
      exact List.cons_ne_nil _ _

/-! ## The label of the transport -/

/-- What comes after the label has no bracket. -/
theorem isTransportSuffix.rest_bracket {suffix rest : JsString} (h : isTransportSuffix suffix)
    (hsuffix : blockHeader transportLabel [] ++ rest = suffix) : 91 ∉ rest := by
  have hfront : (rest.take 12).map JsString.lower = js "deliveryid: " := by
    have hlower := congrArg (List.drop 9) h.2.1
    rw [← hsuffix] at hlower
    exact hlower
  have hend : rest.drop 12 = suffix.drop transportSuffixHead.length := by
    rw [← hsuffix]
    rfl
  intro hmem
  rw [← List.take_append_drop 12 rest, List.mem_append] at hmem
  rcases hmem with htake | hdrop
  · have hlower : JsString.lower 91 ∈ (rest.take 12).map JsString.lower := List.mem_map_of_mem htake
    rw [hfront] at hlower
    exact absurd hlower (by decide +kernel)
  · rw [hend] at hdrop
    exact not_mem_isUuid h.2.2 (by decide +kernel) (by decide) hdrop

theorem length_split_suffix {before suffix : JsString} (h : isTransportSuffix suffix) :
    (Text.split transportLabel (before ++ suffix)).length = 2 ↔ ¬transportLabel <:+: before := by
  have hbreak : 10 ∉ transportLabel := by decide +kernel
  have hne : transportLabel ≠ [] := nofun
  obtain ⟨rest, hsuffix⟩ := h.marker
  have hrest : ¬transportLabel <:+: 10 :: rest := by
    intro hwithin
    have hbracket : 91 ∈ 10 :: rest := hwithin.subset (show 91 ∈ transportLabel by decide +kernel)
    exact h.rest_bracket hsuffix (List.mem_of_ne_of_mem (by decide) hbracket)
  have hshape : before ++ suffix = (before ++ [10, 10]) ++ (transportLabel ++ 10 :: rest) := by
    rw [← hsuffix]
    simp [blockHeader]
  constructor
  · intro hlength hwithin
    obtain ⟨first, more, rfl, hclear⟩ := Text.exists_first hwithin
    have hcut : (first ++ (transportLabel ++ more)) ++ suffix = first ++ (transportLabel ++ (more ++ suffix)) := by simp
    have hclear' : Text.Clear transportLabel first (transportLabel ++ more ++ suffix) := hclear.extend
    rw [List.append_assoc] at hclear'
    rw [hcut, Text.split_first hne hclear', List.length_cons] at hlength
    have hlater : transportLabel <:+: more ++ suffix :=
      List.infix_append_of_infix_right (hsuffix ▸ ⟨[10, 10], 10 :: rest, by simp [blockHeader]⟩)
    have htwo := Text.two_le_length_split hne hlater
    omega
  · intro hnot
    rw [hshape, Text.split_first hne, Text.split_of_absent hrest]
    · rfl
    · refine Text.Clear.append (Text.clear_before hbreak hnot) ?_
      have hhead : ∀ more : JsString, ¬transportLabel <+: 10 :: more :=
        fun more hbegins => absurd (List.cons_prefix_cons.mp hbegins).1 (by decide)
      exact Text.clear_cons.mpr ⟨hhead _, Text.clear_cons.mpr ⟨hhead _, .nil⟩⟩

/-- Where the label of the transport stands in a prompt. -/
theorem label_promptText {header content before : JsString} (hbefore : FollowsContent before) :
    transportLabel <:+: promptText header content before ↔
      transportLabel <:+: header ∨ transportLabel <:+: content ∨ transportLabel <:+: before := by
  have hbreak : 10 ∉ transportLabel := by decide +kernel
  have hne : transportLabel ≠ [] := nofun
  have hmark : promptText header content before =
      header ++ 10 :: ([] ++ 10 :: (js "## 消息内容" ++ 10 :: (content ++ before))) := by
    unfold promptText
    rw [show contentHeader = 10 :: 10 :: (js "## 消息内容" ++ [10]) by decide +kernel]
    simp only [List.cons_append, List.nil_append, List.append_assoc]
  have hnil : ¬transportLabel <:+: [] := by
    rw [List.infix_nil]
    exact hne
  have hheader : ¬transportLabel <:+: js "## 消息内容" := by decide +kernel
  have htail : transportLabel <:+: content ++ before ↔ transportLabel <:+: content ∨ transportLabel <:+: before := by
    cases before with
    | nil =>
      rw [List.append_nil]
      exact ⟨.inl, fun h => h.elim id (absurd · hnil)⟩
    | cons u before =>
      obtain rfl : u = 10 := by simpa [FollowsContent] using hbefore
      rw [Text.infix_around hne hbreak, show 10 :: before = [] ++ 10 :: before from rfl, Text.infix_around hne hbreak]
      exact or_congr Iff.rfl ⟨.inr, fun h => h.elim (absurd · hnil) id⟩
  rw [hmark, Text.infix_around hne hbreak, Text.infix_around hne hbreak, Text.infix_around hne hbreak, htail]
  exact or_congr Iff.rfl ⟨fun h => (h.resolve_left hnil).resolve_left hheader, fun h => .inr (.inr h)⟩

/-! ## The whole reader -/

/-- The legacy contract stands in other prompts only. -/
theorem legacyContractId_promptText {header content tail : JsString} {id : Option JsString}
    (hheader : HeaderText header id) : legacyContractId (legacyContract (promptText header content tail)) = none := by
  obtain ⟨rest, hrest⟩ := hheader.start
  have hprompt : ∃ more, promptText header content tail = 35 :: more := by
    unfold promptText
    rw [← hrest]
    exact ⟨_, rfl⟩
  obtain ⟨more, hmore⟩ := hprompt
  have hname (units : JsString) : ¬(35 :: units).map JsString.lower = js "deliveryid" :=
    fun h => absurd (List.cons.inj h).1 (by decide)
  have hcontract : legacyContract (35 :: more) = 35 :: more := by
    unfold legacyContract
    rw [if_neg (Text.not_begins (by decide)), if_neg (Text.not_begins (by decide))]
  rw [hmore, hcontract]
  unfold legacyContractId
  rw [if_neg (not_or.mpr ⟨Text.not_begins (by decide), Text.not_begins (by decide)⟩)]
  simp only
  rw [if_neg]
  exact fun h => hname _ h.1

/-- The label of the transport stands in none of the parts. -/
def LabelAbsent (header content before : JsString) : Prop :=
  ¬transportLabel <:+: header ∧ ¬transportLabel <:+: content ∧ ¬transportLabel <:+: before

instance (header content before : JsString) : Decidable (LabelAbsent header content before) :=
  inferInstanceAs (Decidable (_ ∧ _))

/-- What follows the content names no id: neither in reply parameters, nor in the suffix of the historical
transport where its label stands nowhere else. -/
structure NamesNoId (header content tail : JsString) : Prop where
  reply : replyId (unixLines tail) = none
  suffix : ∀ before id, transportSuffix (unixLines tail) = some (before, id) →
    LabelAbsent header (unixLines content) before → replyId (unixLines before) = none ∧ transportSuffix tail = none

theorem deliveryIdOfText_header {header content tail id : JsString} (hheader : HeaderText header (some id))
    (hcontent : ContentText content) (htail : FollowsContent tail) (hid : isDeliveryId id = true) :
    deliveryIdOfText (promptText header content tail) = some id := by
  unfold deliveryIdOfText
  rw [currentEnvelopeDeliveryId_promptText hheader hcontent htail, Option.filter_some_pos hid]
  rfl

theorem deliveryIdOfText_reply {header content tail id : JsString} {field : Option JsString}
    (hheader : HeaderText header field) (hfield : field.filter isDeliveryId = none) (hcontent : ContentText content)
    (htail : FollowsContent tail) (hreply : replyId (unixLines tail) = some id) :
    deliveryIdOfText (promptText header content tail) = some id := by
  unfold deliveryIdOfText
  rw [currentEnvelopeDeliveryId_promptText hheader hcontent htail, hfield, hreply]
  rfl

theorem clear_transport {header content tail : JsString} {id : Option JsString} (hheader : HeaderText header id)
    (hcontent : ContentText content) (htail : FollowsContent tail) :
    Text.Clear (blockHeader transportLabel []) (header ++ (contentHeader ++ content)) tail :=
  clear_promptText hheader hcontent htail (by decide +kernel) (by decide +kernel) (by decide +kernel)

/-- The suffix of a prompt is the one of what follows the content. -/
theorem transportSuffix_promptText {header content tail : JsString} {id : Option JsString}
    (hheader : HeaderText header id) (hcontent : ContentText content) (htail : FollowsContent tail) :
    transportSuffix (promptText header content tail) =
      (transportSuffix tail).map fun found => (promptText header content found.1, found.2) := by
  simp only [promptText_eq]
  exact transportSuffix_append (clear_transport hheader hcontent htail)

/-- The text before the suffix, where the label stands only once. -/
theorem withoutLegacyTransportSuffix_promptText {header content tail : JsString} {id : Option JsString}
    (hheader : HeaderText header id) (hcontent : ContentText content) (htail : FollowsContent tail) :
    withoutLegacyTransportSuffix (promptText header content tail) =
      ((transportSuffix (unixLines tail)).filter fun found =>
        decide (LabelAbsent header (unixLines content) found.1)).map fun found => promptText header (unixLines content) found.1 := by
  unfold withoutLegacyTransportSuffix
  rw [unixLines_promptText hheader hcontent]
  simp only
  rw [transportSuffix_promptText hheader hcontent.unixLines htail.unixLines]
  cases hfound : transportSuffix (unixLines tail) with
  | none => rfl
  | some found =>
    obtain ⟨suffix, htext, hsuffix, -⟩ := transportSuffix_iff.mp hfound
    have hbefore : FollowsContent found.1 := htail.unixLines.ofBegin ⟨suffix, htext.symm⟩
    have hall : promptText header (unixLines content) (unixLines tail) =
        promptText header (unixLines content) found.1 ++ suffix := by
      rw [htext]
      simp only [promptText, List.append_assoc]
    have halone : (Text.split transportLabel (promptText header (unixLines content) (unixLines tail))).length = 2 ↔
        LabelAbsent header (unixLines content) found.1 := by
      rw [hall, length_split_suffix hsuffix, label_promptText hbefore, not_or, not_or]
      rfl
    simp only [Option.map_some]
    by_cases h : LabelAbsent header (unixLines content) found.1
    · rw [if_pos (halone.mpr h), Option.filter_some, if_pos (decide_eq_true h)]
      rfl
    · rw [if_neg (h ∘ halone.mp), Option.filter_some, if_neg (by simpa using h)]
      rfl

/-- A prompt whose header has no well-formed id is read as one without an id exactly where the blocks name none. -/
theorem deliveryIdOfText_none {header content tail : JsString} {field : Option JsString}
    (hheader : HeaderText header field) (hfield : field.filter isDeliveryId = none) (hcontent : ContentText content) (htail : FollowsContent tail) :
    deliveryIdOfText (promptText header content tail) = none ↔ NamesNoId header content tail := by
  have hreadTail : currentEnvelopeDeliveryId (promptText header content tail) = replyId (unixLines tail) := by
    rw [currentEnvelopeDeliveryId_promptText hheader hcontent htail, hfield, Option.none_or]
  unfold deliveryIdOfText
  rw [hreadTail, withoutLegacyTransportSuffix_promptText hheader hcontent htail, legacyContractId_promptText hheader,
    transportSuffix_promptText hheader hcontent htail]
  cases hreply : replyId (unixLines tail) with
  | some id =>
    refine ⟨fun h => (by cases h), fun h => ?_⟩
    rw [h.reply] at hreply
    cases hreply
  | none =>
    cases hfound : transportSuffix (unixLines tail) with
    | none => exact ⟨fun _ => ⟨hreply, fun before id h => (by rw [hfound] at h; cases h)⟩, fun _ => rfl⟩
    | some found =>
      obtain ⟨suffix, htext, -, -⟩ := transportSuffix_iff.mp hfound
      have hbefore : FollowsContent found.1 := htail.unixLines.ofBegin ⟨suffix, htext.symm⟩
      have hreadBefore : currentEnvelopeDeliveryId (promptText header (unixLines content) found.1) =
          replyId (unixLines found.1) := by
        rw [currentEnvelopeDeliveryId_promptText hheader hcontent.unixLines hbefore, hfield, Option.none_or]
      have hne : (promptText header (unixLines content) found.1).isEmpty = false := by
        obtain ⟨rest, hrest⟩ := hheader.start
        unfold promptText
        rw [← hrest]
        rfl
      by_cases h : LabelAbsent header (unixLines content) found.1
      · -- both the text before the suffix and the suffix itself are read
        have hiff : NamesNoId header content tail ↔ replyId (unixLines found.1) = none ∧ transportSuffix tail = none := by
          refine ⟨fun hno => hno.suffix found.1 found.2 hfound h, fun hboth => ⟨hreply, ?_⟩⟩
          intro before id heq _
          rw [hfound] at heq
          cases heq
          exact hboth
        rw [hiff]
        simp only [Option.filter_some, decide_eq_true h, if_true, Option.map_some, hne, Bool.not_false, if_true, Option.bind_some, hreadBefore]
        cases replyId (unixLines found.1) with
        | some id => exact ⟨fun h => (by cases h), fun h => (by cases h.1)⟩
        | none =>
          cases transportSuffix tail with
          | some found => exact ⟨fun h => (by cases h), fun h => (by cases h.2)⟩
          | none => exact ⟨fun _ => ⟨rfl, rfl⟩, fun _ => rfl⟩
      · rw [Option.filter_some, if_neg (by simpa using h)]
        refine ⟨fun _ => ⟨hreply, ?_⟩, fun _ => rfl⟩
        intro before id heq habsent
        rw [hfound] at heq
        cases heq
        exact absurd habsent h

end RabiRoute.Delivery
