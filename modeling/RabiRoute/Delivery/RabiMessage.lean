import RabiRoute.AgentRequests.Ledger
import RabiRoute.Text.Split

/-!
# Delivery envelopes

`renderRabiDelivery`: the lines of the message source, the message content with its reserved headers
escaped, and the context and control blocks.
-/

namespace RabiRoute.Delivery

open AgentRequests (unixLines)

/-- `/[\r\n\u2028\u2029]/`, which is also where the flag `m` sees the end of a line. -/
def isLineTerminator (u : UInt16) : Bool := u == 10 || u == 13 || u == 0x2028 || u == 0x2029

/-- `join("\n")` -/
def joinLines (lines : List JsString) : JsString := List.intercalate [10] lines

/-- `split(/\r?\n/)` -/
def splitLines (text : JsString) : List JsString := Text.split [10] (unixLines text)

/-! ## Message sources -/

structure AgentIdentity where
  agentAdapter : JsString
  agentType : Option JsString := none
  sessionName : JsString
  sessionId : JsString
  workspace : Option JsString := none

structure RabiPlanMessageSource where
  planName : JsString
  planId : JsString
  sourceAgent : Option AgentIdentity := none

structure RabiMessageAdapterSource where
  messageAdapter : JsString
  conversationType : JsString
  conversationName : Option JsString := none
  conversationId : JsString
  senderName : Option JsString := none
  senderId : Option JsString := none
  messageId : JsString
  messageGroupId : Option JsString := none
  routeName : Option JsString := none
  routeId : Option JsString := none

structure RabiSystemMessageSource where
  eventType : JsString
  eventName : JsString
  eventId : JsString
  actorType : Option JsString := none
  actorName : Option JsString := none
  actorId : Option JsString := none
  routeName : Option JsString := none
  routeId : Option JsString := none

inductive RabiMessageSource where
  | agent (identity : AgentIdentity)
  | agentHook (identity : AgentIdentity)
  | plan (source : RabiPlanMessageSource)
  | messageAdapter (source : RabiMessageAdapterSource)
  | system (source : RabiSystemMessageSource)

/-- The length and the line check of a text that is not empty. -/
def checkSourceText (text : JsString) (field : String) (maxLength : Nat) : Except JsString JsString :=
  if maxLength < text.length then .error (js field ++ js " is too long.")
  else if text.any isLineTerminator then .error (js field ++ js " must be single-line.")
  else .ok text

def requiredSourceText (value : JsString) (field : String) (maxLength : Nat) : Except JsString JsString :=
  if value.trim.isEmpty then .error (js "Missing " ++ js field ++ js ".")
  else checkSourceText value.trim field maxLength

def optionalSourceText (value : Option JsString) (field : String) (maxLength : Nat) :
    Except JsString (Option JsString) :=
  match value with
  | none => .ok none
  | some value => if value.trim.isEmpty then .ok none else (checkSourceText value.trim field maxLength).map some

/-- `/^[A-Za-z][A-Za-z0-9_.-]*$/` -/
def isAgentAdapterType (value : JsString) : Bool :=
  let letter (u : UInt16) : Bool := (65 ≤ u && u ≤ 90) || (97 ≤ u && u ≤ 122)
  match value with
  | [] => false
  | u :: rest => letter u && rest.all fun u ↦ letter u || (48 ≤ u && u ≤ 57) || u == 95 || u == 46 || u == 45

def parseAgentAdapterType (value : JsString) : Option JsString :=
  if value = js "codexDesktop" ∨ value = js "codexApp" then none
  else if isAgentAdapterType value then some value else none

def normalizeAgentIdentity (raw : AgentIdentity) (field : String) : Except JsString AgentIdentity := do
  let rawAdapter ← requiredSourceText raw.agentAdapter (field ++ ".agentAdapter") 40
  match parseAgentAdapterType rawAdapter with
  | none => .error (js "Invalid " ++ js field ++ js ".agentAdapter.")
  | some agentAdapter =>
    let agentType ← optionalSourceText raw.agentType (field ++ ".agentType") 80
    let sessionName ← requiredSourceText raw.sessionName (field ++ ".sessionName") 500
    let sessionId ← requiredSourceText raw.sessionId (field ++ ".sessionId") 4096
    let workspace ← optionalSourceText raw.workspace (field ++ ".workspace") 2000
    return { agentAdapter, agentType, sessionName, sessionId, workspace }

def normalizePlanSource (raw : RabiPlanMessageSource) : Except JsString RabiPlanMessageSource := do
  let planName ← requiredSourceText raw.planName "messageSource.planName" 500
  let planId ← requiredSourceText raw.planId "messageSource.planId" 300
  let sourceAgent ← match raw.sourceAgent with
    | none => .ok none
    | some identity => (normalizeAgentIdentity identity "messageSource.sourceAgent").map some
  return { planName, planId, sourceAgent }

def normalizeMessageAdapterSource (raw : RabiMessageAdapterSource) : Except JsString RabiMessageAdapterSource := do
  let messageAdapter ← requiredSourceText raw.messageAdapter "messageSource.messageAdapter" 100
  let conversationType ← requiredSourceText raw.conversationType "messageSource.conversationType" 100
  let conversationId ← requiredSourceText raw.conversationId "messageSource.conversationId" 300
  let messageId ← requiredSourceText raw.messageId "messageSource.messageId" 300
  let senderName ← optionalSourceText raw.senderName "messageSource.senderName" 500
  let senderId ← optionalSourceText raw.senderId "messageSource.senderId" 300
  if senderName.isNone && senderId.isNone then
    .error (js "Missing messageSource.senderName or messageSource.senderId.")
  else
    let conversationName ← optionalSourceText raw.conversationName "messageSource.conversationName" 500
    let messageGroupId ← optionalSourceText raw.messageGroupId "messageSource.messageGroupId" 300
    let routeName ← optionalSourceText raw.routeName "messageSource.routeName" 500
    let routeId ← optionalSourceText raw.routeId "messageSource.routeId" 300
    return { messageAdapter, conversationType, conversationName, conversationId, senderName, senderId, messageId,
             messageGroupId, routeName, routeId }

def normalizeSystemSource (raw : RabiSystemMessageSource) : Except JsString RabiSystemMessageSource := do
  let eventType ← requiredSourceText raw.eventType "messageSource.eventType" 100
  let eventName ← requiredSourceText raw.eventName "messageSource.eventName" 500
  let eventId ← requiredSourceText raw.eventId "messageSource.eventId" 300
  let actorType ← optionalSourceText raw.actorType "messageSource.actorType" 100
  let actorName ← optionalSourceText raw.actorName "messageSource.actorName" 500
  let actorId ← optionalSourceText raw.actorId "messageSource.actorId" 300
  let routeName ← optionalSourceText raw.routeName "messageSource.routeName" 500
  let routeId ← optionalSourceText raw.routeId "messageSource.routeId" 300
  return { eventType, eventName, eventId, actorType, actorName, actorId, routeName, routeId }

def normalizeRabiMessageSource : RabiMessageSource → Except JsString RabiMessageSource
  | .agent identity => (normalizeAgentIdentity identity "messageSource").map .agent
  | .agentHook identity => (normalizeAgentIdentity identity "messageSource").map .agentHook
  | .plan source => (normalizePlanSource source).map .plan
  | .messageAdapter source => (normalizeMessageAdapterSource source).map .messageAdapter
  | .system source => (normalizeSystemSource source).map .system

/-! ## Source lines -/

/-- What `new Date().toLocaleString` answers: a text on one line that needs no trimming. -/
structure LocaleTime where
  text : JsString
  nonempty : text ≠ []
  trimmed : text.trim = text
  short : text.length ≤ 100
  oneLine : text.any isLineTerminator = false

def deliverySentAt (now : LocaleTime) (value : Option JsString) : Except JsString JsString :=
  (optionalSourceText value "delivery.sentAt" 100).map fun sentAt ↦ sentAt.getD now.text

def labelled (label : String) (value : JsString) : JsString := js label ++ (js "：" ++ value)

def optionalLine (label : String) (value : Option JsString) : Option JsString :=
  let text := (value.getD []).trim
  if text.isEmpty then none else some (labelled label text)

def endpointName (name : JsString) : JsString := if name = js "grokBot" then js "GrokBot" else name

/-- `standalone` is the type that the first line names. -/
def agentSourceLines (source : AgentIdentity) (standalone : Option String) : List (Option JsString) :=
  [some (match standalone with
    | some kind => labelled ("类型：" ++ kind ++ "｜处理端") (endpointName source.agentAdapter)
    | none => labelled "处理端" (endpointName source.agentAdapter)),
   if source.agentType.map (fun agentType ↦ agentType.trim.map JsString.lower) = some (js "agent") then none
   else optionalLine "角色" source.agentType,
   some (labelled "会话" source.sessionName),
   some (labelled "会话 ID" source.sessionId),
   optionalLine "工作目录" source.workspace]

def rabiSourceFields : RabiMessageSource → List (Option JsString)
  | .agent identity => agentSourceLines identity (some "Agent")
  | .agentHook identity => agentSourceLines identity (some "AgentHook")
  | .plan source =>
    [some (js "消息源类型：计划"), some (labelled "计划名称" source.planName), some (labelled "计划 ID" source.planId)] ++
      (source.sourceAgent.map fun identity ↦ agentSourceLines identity none).getD []
  | .messageAdapter source =>
    [some (js "消息源类型：消息端"), some (labelled "消息端" (endpointName source.messageAdapter)),
     optionalLine "会话类型" (some source.conversationType), optionalLine "会话名称" source.conversationName,
     optionalLine "会话 ID" (some source.conversationId), optionalLine "发送者名称" source.senderName,
     optionalLine "发送者 ID" source.senderId, optionalLine "消息 ID" (some source.messageId),
     optionalLine "消息组 ID" source.messageGroupId, optionalLine "消息路线" source.routeName,
     optionalLine "消息路线 ID" source.routeId]
  | .system source =>
    [some (js "消息源类型：系统"), some (labelled "事件类型" source.eventType),
     some (labelled "事件名称" source.eventName), some (labelled "事件 ID" source.eventId),
     optionalLine "触发方类型" source.actorType, optionalLine "触发方名称" source.actorName,
     optionalLine "触发方 ID" source.actorId, optionalLine "消息路线" source.routeName,
     optionalLine "消息路线 ID" source.routeId]

def sentAtLabel : RabiMessageSource → String
  | .agent _ | .agentHook _ => "投递时间"
  | _ => "消息包发送时间"

def rabiMessageSourceLines (now : LocaleTime) (source : RabiMessageSource) (sentAt : JsString) :
    Except JsString (List JsString) := do
  let sentAt ← deliverySentAt now (some sentAt)
  let lines := (rabiSourceFields source ++ [some (labelled (sentAtLabel source) sentAt)]).filterMap id
  return js "## 消息源" :: lines.map fun line ↦ js "- " ++ line

/-! ## Message content and blocks -/

/-- The lines that follow the fields of an old delivery source. -/
def dropSourceLines : List JsString → List JsString
  | [] => []
  | line :: rest =>
    if line.trim.isEmpty then (line :: rest).dropWhile fun line ↦ line.trim.isEmpty
    else if ["消息源类型", "投递源类型", "Agent 端", "来源 Agent", "来源会话", "来源会话名称", "来源会话 ID",
        "来源工作目录", "会话名称", "会话 ID", "工作目录"].any fun label ↦ (js label ++ js "：").isPrefixOf line.trim then
      dropSourceLines rest
    else line :: rest

/-- One pass of the loop; `none` is its `break`. -/
def stripPass (text : JsString) : Option JsString :=
  if js "## 消息源" <+: text ∨ js "[消息源]" <+: text then
    ((splitLines text).findIdx? fun line ↦ line.trim = js "## 消息内容" || line.trim = js "[消息内容]").map fun i ↦
      (joinLines ((splitLines text).drop (i + 1))).trim
  else if js "[投递源]" <+: text then some (joinLines (dropSourceLines ((splitLines text).drop 1))).trim
  else none

def stripPasses : Nat → JsString → JsString
  | 0, text => text
  | passes + 1, text =>
    match stripPass text with
    | none => text
    | some text => stripPasses passes text

def stripLeadingRabiEnvelope (value : JsString) : JsString := stripPasses 3 value.trim

/-- `/^(?:\[[^\]\r\n]{1,100}\]|## (?:消息源|消息内容))$/` -/
def isReservedHeader (line : JsString) : Bool :=
  let inner := (line.drop 1).dropLast
  (line.head? == some 91 && line.getLast? == some 93 && 0 < inner.length && inner.length ≤ 100 &&
    inner.all fun u ↦ u != 93 && u != 13 && u != 10) ||
    line == js "## 消息源" || line == js "## 消息内容"

def escapeHeader (line : JsString) : JsString := if isReservedHeader line.trim then js "> " ++ line else line

def normalizeRabiMessageContent (value : JsString) (escapeReservedHeaders : Bool) : JsString :=
  if escapeReservedHeaders then joinLines ((splitLines (stripLeadingRabiEnvelope value)).map escapeHeader)
  else stripLeadingRabiEnvelope value

/-- A line of the block is the header of an envelope, but for the blanks around it. -/
def hasEnvelopeHeader (block : JsString) : Bool :=
  (block.splitOnP isLineTerminator).any fun line ↦
    decide (JsString.trim line ∈ ["[消息源]", "[消息内容]", "[投递源]", "## 消息源", "## 消息内容"].map js)

def normalizeRabiDeliveryBlock (value : JsString) (field : String) : Except JsString JsString :=
  if !value.trim.isEmpty && hasEnvelopeHeader value.trim then
    .error (js field ++ js " must not contain a message envelope header.")
  else .ok value.trim

/-- The blocks that are not empty, checked in order. -/
def normalizeBlocks (field : String) (blocks : List JsString) : Except JsString (List JsString) := do
  let blocks ← blocks.zipIdx.mapM fun (block, index) ↦
    normalizeRabiDeliveryBlock block (field ++ "[" ++ toString index ++ "]")
  return blocks.filter fun block ↦ !block.isEmpty

structure RabiDeliveryEnvelope where
  messageSource : RabiMessageSource
  messageContent : JsString
  contextBlocks : List JsString := []
  controlBlocks : List JsString := []
  escapeMessageContentHeaders : Bool := true
  sentAt : Option JsString := none
  deliveryId : Option JsString := none

def renderRabiDeliveryContent (envelope : RabiDeliveryEnvelope) : Except JsString JsString := do
  let messageContent := normalizeRabiMessageContent envelope.messageContent envelope.escapeMessageContentHeaders
  let contextBlocks ← normalizeBlocks "contextBlocks" envelope.contextBlocks
  let controlBlocks ← normalizeBlocks "controlBlocks" envelope.controlBlocks
  return (joinLines (messageContent :: ((if contextBlocks.isEmpty then [] else [[], js "[相关上下文]"]) ++
    (contextBlocks ++ controlBlocks).flatMap fun block ↦ [[], block]))).trimEnd

def renderRabiDelivery (now : LocaleTime) (envelope : RabiDeliveryEnvelope) : Except JsString JsString := do
  let messageSource ← normalizeRabiMessageSource envelope.messageSource
  let sentAt ← deliverySentAt now envelope.sentAt
  let sourceLines ← rabiMessageSourceLines now messageSource sentAt
  let idLines := match AgentRequests.presentText envelope.deliveryId with
    | none => []
    | some deliveryId => [js "- 投递 ID：" ++ deliveryId]
  let content ← renderRabiDeliveryContent envelope
  return (joinLines (sourceLines ++ idLines ++ [[], js "## 消息内容", content])).trimEnd

end RabiRoute.Delivery
