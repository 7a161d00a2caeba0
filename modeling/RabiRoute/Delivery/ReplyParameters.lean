import RabiRoute.AgentRequests.Ledger
import RabiRoute.JsonText.Document

/-!
# Reply parameters

The control block of a delivery that expects or answers a reply: `[回传参数]` and a JSON record.
-/

namespace RabiRoute.Delivery

open AgentRequests JsonText

/-! ## `encodeURIComponent` -/

/-- The code points of a text; `none` where a surrogate stands alone. -/
def codePoints : JsString → Option (List Nat)
  | [] => some []
  | [u] => if isLead u || isTrail u then none else some [u.toNat]
  | u :: v :: rest =>
    if isLead u && isTrail v then
      (codePoints rest).map fun points ↦ (0x10000 + (u.toNat - 0xD800) * 0x400 + (v.toNat - 0xDC00)) :: points
    else if isLead u || isTrail u then none
    else (codePoints (v :: rest)).map fun points ↦ u.toNat :: points

def utf8 (point : Nat) : List Nat :=
  if point < 0x80 then [point]
  else if point < 0x800 then [0xC0 + point / 0x40, 0x80 + point % 0x40]
  else if point < 0x10000 then [0xE0 + point / 0x1000, 0x80 + point / 0x40 % 0x40, 0x80 + point % 0x40]
  else [0xF0 + point / 0x40000, 0x80 + point / 0x1000 % 0x40, 0x80 + point / 0x40 % 0x40, 0x80 + point % 0x40]

/-- The characters that stay as they are. -/
def unescaped : JsString :=
  js "ABCDEFGHIJKLMNOPQRSTUVWXYZabcdefghijklmnopqrstuvwxyz0123456789-_.!~*'()"

def percentDigit (n : Nat) : UInt16 := if n < 10 then UInt16.ofNat (48 + n) else UInt16.ofNat (55 + n)

def encodeByte (byte : Nat) : JsString :=
  if UInt16.ofNat byte ∈ unescaped then [UInt16.ofNat byte]
  else [37, percentDigit (byte / 16), percentDigit (byte % 16)]

/-- `encodeURIComponent`; it throws a `URIError` at a lone surrogate. -/
def encodeURIComponent (text : JsString) : Except JsString JsString :=
  match codePoints text with
  | none => .error (js "URI malformed")
  | some points => .ok ((points.flatMap utf8).flatMap encodeByte)

/-! ## The parameters -/

abbrev Fields := List (JsString × Document)

def field (name : String) (value : JsString) : Fields := [(js name, .text value)]

/-- A field that is left out when its value is `undefined`. -/
def optionalField (name : String) (value : Option JsString) : Fields :=
  match value with
  | none => []
  | some value => field name value

/-- `value || fallback` -/
def orElse (value fallback : JsString) : JsString := if value.isEmpty then fallback else value

def ResponsePolicy.text : AgentResponsePolicy → JsString
  | .required => js "required"
  | .none => js "none"

/-- The fields at the end of every request. -/
def replyFields (requestId : JsString) : Fields :=
  field "inReplyToRequestId" requestId ++ field "result" (js "<结果>") ++ field "nextAction" (js "<下一步>") ++
    field "responsePolicy" (js "none")

def agentReplySource (target : AgentRequestParty) (sessionName : JsString) : Document :=
  .record (field "type" (js "agent") ++ optionalField "agentAdapter" target.agentAdapter ++
    field "sessionId" target.threadId ++ field "sessionName" sessionName ++ optionalField "workspace" target.workspace)

/-- The request that answers a connection. -/
def connectionReplyRequest (connection : AgentConnectionSource) (target : AgentRequestParty) (requestId : JsString) :
    Fields :=
  optionalField "ledgerOwnerDeviceId" (presentText connection.ledgerOwnerDeviceId) ++
    field "action" (js "send") ++ replyFields requestId ++
    (if (presentText target.agentAdapter).isSome && !target.threadId.isEmpty then
      field "sourceThreadId" target.threadId ++ field "sourceAgentType" (orElse target.agentType (js "agent")) ++
        [(js "messageSource", agentReplySource target (orElse (target.threadName.getD []) target.threadId))]
    else [])

/-- The device that keeps the request, where the target needs to know it. -/
def ledgerOwner (source target : AgentRequestParty) : Option JsString :=
  match presentText (source.endpoint.bind (·.ledgerOwnerDeviceId)) with
  | some owner => some owner
  | none => (presentText (source.endpoint.bind (·.ownerDeviceId))).filter fun owner ↦
    decide (some owner ≠ target.endpoint.bind (·.ownerDeviceId))

/-- How the reply names the endpoint of the source. -/
def endpointFields (endpoint : AgentRequestEndpoint) : Fields :=
  match endpoint.kind with
  | .instance_ | .device => [(js "instanceBinding", .record (optionalField "instanceId" endpoint.instanceId ++
      field "agentId" endpoint.agentId ++ optionalField "ownerDeviceId" (presentText endpoint.ownerDeviceId)))]
  | .local_ | .service => field "agentTargetId" (js "local:" ++ endpoint.provider)

def agentReplyRequest (source target : AgentRequestParty) (requestId : JsString) : Fields :=
  match source.connection with
  | some connection => connectionReplyRequest connection target requestId
  | none =>
    optionalField "ledgerOwnerDeviceId" (ledgerOwner source target) ++ field "action" (js "send") ++
      field "threadId" source.threadId ++ optionalField "cwd" source.workspace ++
      optionalField "agentAdapter" (source.agentAdapter.orElse fun _ ↦ source.endpoint.map (·.provider)) ++
      (source.endpoint.map endpointFields).getD [] ++
      [(js "messageSource", agentReplySource target (orElse (target.threadName.getD [])
        (orElse ((target.endpoint.map (·.agentId)).getD []) target.threadId)))] ++
      field "sourceThreadId" target.threadId ++ field "sourceAgentType" (orElse target.agentType (js "agent")) ++
      replyFields requestId

def connectionRecordParameters (connection : AgentConnectionSource) (requestId : JsString)
    (target : AgentRequestParty) : Except JsString Fields := do
  let ledgerOwnerDeviceId := presentText connection.ledgerOwnerDeviceId
  let owner := presentText (target.endpoint.bind (·.ownerDeviceId))
  let id ← encodeURIComponent requestId
  let path := js "/api/agent/requests/" ++ id
  let path ← match ledgerOwnerDeviceId with
    | some ledger =>
      if owner.isSome && decide (some ledger ≠ owner) then
        (encodeURIComponent ledger).map fun ledger ↦ js "/api/rabilink/peer/http/" ++ ledger ++ js "/manager" ++ path
      else .ok path
    | none => .ok path
  return field "requestId" requestId ++ field "managerInstanceId" connection.managerInstanceId ++
    [(js "record", .record (field "method" (js "GET") ++ field "path" path ++
      optionalField "ledgerOwnerDeviceId" ledgerOwnerDeviceId))] ++
    field "continuation" (js "来源是连接而非任务。保留原 requestId，在原 Manager 请求记录中查看处理结果；通过 /api/agent/threads 提交原 requestId 的结果，仅记录回执，不投递原生任务。")

/-- What a request adds to the parameters. -/
def requestParameters (preparation : AgentCommunicationPreparation) : Except JsString Fields :=
  match presentText preparation.requestId with
  | none => .ok []
  | some requestId =>
    let request := [(js "request", Document.record (agentReplyRequest preparation.source preparation.target requestId))]
    match preparation.source.connection with
    | some connection => do
        let record ← connectionRecordParameters connection requestId preparation.target
        return record ++ optionalField "responseInstruction" preparation.responseInstruction ++
          field "endpoint" (js "POST /api/agent/threads") ++ request
    | none => .ok (field "requestId" requestId ++
        optionalField "responseInstruction" preparation.responseInstruction ++
        field "endpoint" (js "POST /api/agent/threads") ++ request ++
        field "continuation" (js "需要继续往返时，将 request.responsePolicy 改为 required 并填写 responseInstruction。"))

def agentReplyParameters (preparation : AgentCommunicationPreparation) : Except JsString Document := do
  let request ← requestParameters preparation
  return .record (field "deliveryId" preparation.deliveryId ++
    field "responsePolicy" (ResponsePolicy.text preparation.responsePolicy) ++
    optionalField "inReplyToRequestId" (presentText preparation.inReplyToRequestId) ++ request)

def renderAgentReplyParameters (preparation : AgentCommunicationPreparation) : Except JsString JsString :=
  (agentReplyParameters preparation).map fun parameters ↦ js "[回传参数]\n" ++ stringify parameters

end RabiRoute.Delivery
