import RabiRoute.Delivery.ContentText
import RabiRoute.Delivery.Header

/-!
# The parts of a prompt

A rendered delivery is its header, the header of the content, the content and the text of the blocks.
-/

namespace RabiRoute.Delivery

open JsString (isWhitespace)

/-- The header of the content, after the empty line that ends the header of the envelope. -/
def contentHeader : JsString := js "\n\n## 消息内容\n"

/-- What the context blocks and the control blocks add to the content. -/
def blocksText (contextBlocks controlBlocks : List JsString) : JsString :=
  (if contextBlocks.isEmpty then [] else js "\n\n[相关上下文]") ++
    (contextBlocks ++ controlBlocks).flatMap fun block ↦ 10 :: 10 :: block

/-- A block as it is rendered. -/
structure BlockText (block : JsString) : Prop where
  trimmed : JsString.trim block = block
  nonempty : block ≠ []

/-! ## Blocks -/

theorem normalizeRabiDeliveryBlock_ok {value block : JsString} {field : String}
    (h : normalizeRabiDeliveryBlock value field = .ok block) : block = JsString.trim value := by
  unfold normalizeRabiDeliveryBlock at h
  split at h
  · cases h
  · exact (Except.ok.inj h).symm

theorem mapM_blocks {field : String} {blocks normalized : List JsString} {start : Nat}
    (h : (blocks.zipIdx start).mapM (fun (block, index) =>
      normalizeRabiDeliveryBlock block (field ++ "[" ++ toString index ++ "]")) = .ok normalized) :
    normalized = blocks.map JsString.trim := by
  induction blocks generalizing start normalized with
  | nil => exact (Except.ok.inj h).symm
  | cons block blocks ih =>
    rw [List.zipIdx_cons, List.mapM_cons] at h
    obtain ⟨first, hfirst, h⟩ := Fallible.bind_ok.mp h
    obtain ⟨rest, hrest, h⟩ := Fallible.bind_ok.mp h
    rw [← Except.ok.inj h, normalizeRabiDeliveryBlock_ok hfirst, ih hrest]
    rfl

theorem normalizeBlocks_ok {field : String} {blocks normalized : List JsString} (h : normalizeBlocks field blocks = .ok
    normalized) : normalized = (blocks.map JsString.trim).filter fun block => !block.isEmpty := by
  obtain ⟨mapped, hmapped, h⟩ := Fallible.bind_ok.mp h
  rw [← Except.ok.inj h, mapM_blocks hmapped]

theorem blockText_normalizeBlocks {field : String} {blocks normalized : List JsString}
    (h : normalizeBlocks field blocks = .ok normalized) : ∀ block ∈ normalized, BlockText block := by
  rw [normalizeBlocks_ok h]
  intro block hblock
  obtain ⟨hmem, hne⟩ := List.mem_filter.mp hblock
  obtain ⟨value, -, rfl⟩ := List.mem_map.mp hmem
  exact ⟨JsString.trim_trim value, by simpa using hne⟩

theorem BlockText.last {block : JsString} (h : BlockText block) :
    ∀ u, block.getLast? = some u → isWhitespace u = false := (trim_fixed h.trimmed).2

/-- What may follow the content: nothing, or lines of which the last does not end with white space. -/
structure TailText (text : JsString) : Prop where
  head : text = [] ∨ text.head? = some 10
  last : ∀ u, text.getLast? = some u → isWhitespace u = false

theorem TailText.block {text block : JsString} (h : TailText text) (hblock : BlockText block) :
    TailText (text ++ 10 :: 10 :: block) := by
  constructor
  · right
    rcases h.head with rfl | hhead
    · rfl
    · cases text with
      | nil => cases hhead
      | cons u text => exact hhead
  · intro u hu
    rw [show text ++ 10 :: 10 :: block = (text ++ [10, 10]) ++ block by simp,
      List.getLast?_append_of_ne_nil _ hblock.nonempty] at hu
    exact hblock.last u hu

theorem TailText.blocks {text : JsString} (h : TailText text) {blocks : List JsString}
    (hblocks : ∀ block ∈ blocks, BlockText block) : TailText (text ++ blocks.flatMap fun block => 10 :: 10 :: block) := by
  induction blocks generalizing text with
  | nil =>
    rw [List.flatMap_nil, List.append_nil]
    exact h
  | cons block blocks ih =>
    rw [List.forall_mem_cons] at hblocks
    rw [List.flatMap_cons, ← List.append_assoc]
    exact ih (h.block hblocks.1) hblocks.2

theorem tailText_blocksText {contextBlocks controlBlocks : List JsString}
    (hcontext : ∀ block ∈ contextBlocks, BlockText block) (hcontrol : ∀ block ∈ controlBlocks, BlockText block) :
    TailText (blocksText contextBlocks controlBlocks) := by
  unfold blocksText
  refine TailText.blocks ?_ fun block hblock => (List.mem_append.mp hblock).elim (hcontext block) (hcontrol block)
  split
  · exact ⟨.inl rfl, nofun⟩
  · refine ⟨.inr rfl, fun u hu => ?_⟩
    have hend : (js "\n\n[相关上下文]").getLast? = some 93 := by decide +kernel
    rw [hend] at hu
    cases hu
    rfl

/-! ## Joining -/

theorem joinLines_flatMap (line : JsString) (lines : List JsString) :
    joinLines (line :: lines) = line ++ lines.flatMap (10 :: ·) := by
  induction lines generalizing line with
  | nil => rw [joinLines_singleton, List.flatMap_nil, List.append_nil]
  | cons next lines ih => rw [joinLines_cons, ih next, List.flatMap_cons, List.cons_append]

theorem content_blocks (content : JsString) (contextBlocks controlBlocks : List JsString) :
    joinLines (content :: ((if contextBlocks.isEmpty then [] else [[], js "[相关上下文]"]) ++
      (contextBlocks ++ controlBlocks).flatMap fun block => [[], block])) =
      content ++ blocksText contextBlocks controlBlocks := by
  have hblock : (fun block : JsString => [[], block].flatMap (10 :: ·)) = fun block => 10 :: 10 :: block := by
    funext block
    show 10 :: 10 :: (block ++ []) = _
    rw [List.append_nil]
  have hmark : [[], js "[相关上下文]"].flatMap (10 :: ·) = js "\n\n[相关上下文]" := by decide +kernel
  rw [joinLines_flatMap, List.flatMap_append, List.flatMap_assoc, hblock]
  unfold blocksText
  cases contextBlocks with
  | nil => rfl
  | cons block blocks =>
    rw [List.isEmpty_cons, if_neg Bool.false_ne_true, if_neg Bool.false_ne_true, hmark]

/-- The content and what follows it end with something else than white space. -/
theorem last_content {content tail : JsString} (hcontent : ContentText content) (htail : TailText tail) :
    ∀ u, (content ++ tail).getLast? = some u → isWhitespace u = false := by
  intro u hu
  cases tail with
  | nil =>
    rw [List.append_nil] at hu
    exact hcontent.last u hu
  | cons v tail =>
    rw [List.getLast?_append_of_ne_nil _ (List.cons_ne_nil v tail)] at hu
    exact htail.last u hu

theorem joinLines_content (line : JsString) (lines : List JsString) (content : JsString) :
    joinLines (line :: lines ++ [[], js "## 消息内容", content]) = joinLines (line :: lines) ++ (contentHeader ++ content) := by
  have hheader : contentHeader = 10 :: 10 :: (js "## 消息内容" ++ [10]) := by decide +kernel
  have htail : [[], js "## 消息内容", content].flatMap (10 :: ·) = contentHeader ++ content := by
    rw [List.flatMap_cons, List.flatMap_cons, List.flatMap_cons, List.flatMap_nil, List.append_nil, hheader]
    simp only [List.cons_append, List.nil_append, List.append_assoc]
  rw [List.cons_append, joinLines_flatMap, joinLines_flatMap, List.flatMap_append, htail, List.append_assoc]

/-! ## The rendered delivery -/

/-- What the parts of an envelope are normalized to. -/
structure DeliveryParts where
  sourceLines : List JsString
  messageContent : JsString
  contextBlocks : List JsString
  controlBlocks : List JsString
deriving DecidableEq

def deliveryParts (now : LocaleTime) (envelope : RabiDeliveryEnvelope) : Except JsString DeliveryParts := do
  let messageSource ← normalizeRabiMessageSource envelope.messageSource
  let sentAt ← deliverySentAt now envelope.sentAt
  let sourceLines ← rabiMessageSourceLines now messageSource sentAt
  let contextBlocks ← normalizeBlocks "contextBlocks" envelope.contextBlocks
  let controlBlocks ← normalizeBlocks "controlBlocks" envelope.controlBlocks
  let messageContent := normalizeRabiMessageContent envelope.messageContent envelope.escapeMessageContentHeaders
  return { sourceLines, messageContent, contextBlocks, controlBlocks }

namespace DeliveryParts

/-- The header of an envelope with this id. -/
def header (parts : DeliveryParts) (id : Option JsString) : JsString :=
  joinLines (parts.sourceLines ++ id.toList.map (idLabel ++ ·))

def tail (parts : DeliveryParts) : JsString := blocksText parts.contextBlocks parts.controlBlocks

/-- What the reader can rely on. -/
structure WellFormed (parts : DeliveryParts) : Prop where
  header : ∀ id, (∀ text, id = some text → OneLine text ∧ text ≠ []) → HeaderText (parts.header id) id
  content : ContentText parts.messageContent
  contextBlocks : ∀ block ∈ parts.contextBlocks, BlockText block
  controlBlocks : ∀ block ∈ parts.controlBlocks, BlockText block

theorem WellFormed.tail {parts : DeliveryParts} (h : parts.WellFormed) : TailText parts.tail :=
  tailText_blocksText h.contextBlocks h.controlBlocks

end DeliveryParts

theorem deliveryParts_wellFormed {now : LocaleTime} {envelope : RabiDeliveryEnvelope} {parts : DeliveryParts}
    (h : deliveryParts now envelope = .ok parts) (hescape : envelope.escapeMessageContentHeaders = true)
    (hcontent : parts.messageContent ≠ []) : parts.WellFormed := by
  obtain ⟨messageSource, hsource, h⟩ := Fallible.bind_ok.mp h
  obtain ⟨sentAt, -, h⟩ := Fallible.bind_ok.mp h
  obtain ⟨sourceLines, hlines, h⟩ := Fallible.bind_ok.mp h
  obtain ⟨contextBlocks, hcontext, h⟩ := Fallible.bind_ok.mp h
  obtain ⟨controlBlocks, hcontrol, h⟩ := Fallible.bind_ok.mp h
  obtain ⟨line, fields, rfl, hfields⟩ := rabiMessageSourceLines_eq hsource hlines
  rw [hescape] at h
  cases h
  exact ⟨fun _ => headerText_lines hfields, contentText_normalize hcontent, blockText_normalizeBlocks hcontext,
    blockText_normalizeBlocks hcontrol⟩

/-- The prompt is put together from the normalized parts. -/
theorem renderRabiDelivery_eq {now : LocaleTime} {envelope : RabiDeliveryEnvelope} {prompt : JsString}
    {parts : DeliveryParts} (h : renderRabiDelivery now envelope = .ok prompt)
    (hparts : deliveryParts now envelope = .ok parts) (hwell : parts.WellFormed) :
    prompt = parts.header (AgentRequests.presentText envelope.deliveryId) ++
      (contentHeader ++ (parts.messageContent ++ parts.tail)) := by
  obtain ⟨messageSource, hsource, h⟩ := Fallible.bind_ok.mp h
  obtain ⟨sentAt, hsentAt, h⟩ := Fallible.bind_ok.mp h
  obtain ⟨sourceLines, hlines, h⟩ := Fallible.bind_ok.mp h
  obtain ⟨content, hrender, h⟩ := Fallible.bind_ok.mp h
  obtain ⟨contextBlocks, hcontext, hrender⟩ := Fallible.bind_ok.mp hrender
  obtain ⟨controlBlocks, hcontrol, hrender⟩ := Fallible.bind_ok.mp hrender
  have hsame : parts = ⟨sourceLines, normalizeRabiMessageContent envelope.messageContent
      envelope.escapeMessageContentHeaders, contextBlocks, controlBlocks⟩ := by
    unfold deliveryParts at hparts
    rw [hsource] at hparts
    simp only [bind, Except.bind, hsentAt, hlines, hcontext, hcontrol] at hparts
    exact (Except.ok.inj hparts).symm
  obtain ⟨line, fields, rfl, hfields⟩ := rabiMessageSourceLines_eq hsource hlines
  have hlast := last_content hwell.content hwell.tail
  have hrendered : content = parts.messageContent ++ parts.tail := by
    rw [← trimEnd_eq hlast, hsame]
    show content = JsString.trimEnd (_ ++ blocksText contextBlocks controlBlocks)
    rw [← content_blocks]
    exact (Except.ok.inj hrender).symm
  have hprompt : prompt = JsString.trimEnd (joinLines (js "## 消息源" :: (line :: fields ++
      (AgentRequests.presentText envelope.deliveryId).toList.map (idLabel ++ ·)) ++ [[], js "## 消息内容", content])) := by
    rw [← Except.ok.inj h]
    cases AgentRequests.presentText envelope.deliveryId with
    | none => rfl
    | some text => rfl
  obtain ⟨u, rest, hhead, -⟩ := hwell.content.head
  have hne : content ≠ [] := by
    rw [hrendered, hhead]
    exact List.cons_ne_nil u _
  rw [hprompt, joinLines_content, trimEnd_eq, hrendered]
  · rw [hsame]
    rfl
  · rw [← List.append_assoc, List.getLast?_append_of_ne_nil _ hne, hrendered]
    exact hlast

end RabiRoute.Delivery
