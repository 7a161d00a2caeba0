import RabiRoute.Shared.CleanText

/-!
# Parties of agent requests

The endpoints and connections that send and receive agent deliveries, their normal forms, and the
comparisons that say when two of them are the same party, the same address or the same caller.
-/

namespace RabiRoute.AgentRequests

/-- The errors of the ledger; `coded` is an `Error` with a `code`. -/
inductive Failure where
  | error (message : JsString)
  | coded (message code : JsString)
  | contract (message field stage repair code : JsString)
  | replyState (requestId currentState reason nextAction : JsString)
deriving DecidableEq

def fail {α : Type} (message : String) : Except Failure α := .error (.error (js message))

def failIf (condition : Bool) (message : String) : Except Failure Unit :=
  if condition then fail message else .ok ()

/-! ## Options of an execution -/

structure GrokBotDelivery where
  deliveryType : JsString
  sendMode : JsString
  senderAgentId : Option JsString := none

structure EndpointExecutionOptions where
  cwd : Option JsString := none
  model : Option JsString := none
  reasoningEffort : Option JsString := none
  sandbox : Option JsString := none
  dshDeliveryMode : Option JsString := none
  grokBotDelivery : Option GrokBotDelivery := none

def boundedText (value : JsString) (name : String) (max : Nat) : Except Failure JsString :=
  if (JsString.trim value).isEmpty || max < value.length || decide (0 ∈ value) then
    fail ("Invalid endpoint execution " ++ name ++ ".")
  else .ok (JsString.trim value)

/-- Check an option that is given. -/
def optionally (value : Option JsString) (check : JsString → Except Failure JsString) :
    Except Failure (Option JsString) :=
  match value with
  | none => .ok none
  | some value => (check value).map some

/-- One of the texts. -/
def oneOf (texts : List String) (message : String) (value : JsString) : Except Failure JsString :=
  if value ∈ texts.map js then .ok value else fail message

def normalizeGrokBotDelivery (delivery : GrokBotDelivery) : Except Failure GrokBotDelivery := do
  failIf (decide (delivery.deliveryType ∉ [js "private", js "group"]) ||
    decide (delivery.sendMode ∉ [js "direct", js "identity"])) "Invalid Grok Bot delivery options."
  failIf (delivery.sendMode = js "direct" && delivery.senderAgentId.isSome)
    "Direct delivery cannot carry a sender identity."
  let senderAgentId ←
    if delivery.sendMode = js "identity" then
      (boundedText (delivery.senderAgentId.getD []) "senderAgentId" 4096).map some
    else .ok none
  return { delivery with senderAgentId }

def normalizeEndpointExecutionOptions (input : EndpointExecutionOptions) :
    Except Failure EndpointExecutionOptions := do
  let cwd ← optionally input.cwd (boundedText · "cwd" 32768)
  let model ← optionally input.model (boundedText · "model" 500)
  let reasoningEffort ← optionally input.reasoningEffort
    (oneOf ["none", "minimal", "low", "medium", "high", "xhigh", "max", "ultra"]
      "Invalid endpoint execution reasoningEffort.")
  let sandbox ← optionally input.sandbox
    (oneOf ["read-only", "workspace-write", "danger-full-access"] "Invalid endpoint execution sandbox.")
  let dshDeliveryMode ← optionally input.dshDeliveryMode
    (oneOf ["queue", "steer"] "Invalid endpoint execution dshDeliveryMode.")
  let grokBotDelivery ← match input.grokBotDelivery with
    | none => .ok none
    | some delivery => (normalizeGrokBotDelivery delivery).map some
  return { cwd, model, reasoningEffort, sandbox, dshDeliveryMode, grokBotDelivery }

/-- `replace(/\r\n/g, "\n")` -/
def unixLines : JsString → JsString
  | [] => []
  | [u] => [u]
  | u :: v :: rest => if u = 13 && v = 10 then 10 :: unixLines rest else u :: unixLines (v :: rest)

/-! ## Endpoints and connections -/

inductive EndpointKind where
  | local_
  | instance_
  | device
  | service
deriving DecidableEq

structure AgentRequestEndpoint where
  kind : EndpointKind
  managerInstanceId : JsString
  ownerDeviceId : Option JsString := none
  ledgerOwnerDeviceId : Option JsString := none
  instanceId : Option JsString := none
  nodeId : Option JsString := none
  agentId : JsString
  provider : JsString
  sessionId : JsString
  authorizationIncarnation : JsString
deriving DecidableEq

inductive ConnectionTransport where
  | lanAgent
  | rabilink
  | local_
  | service
deriving DecidableEq

structure AgentConnectionSource where
  managerInstanceId : JsString
  transport : ConnectionTransport
  id : JsString
  authorizationIncarnation : Option JsString := none
  ledgerOwnerDeviceId : Option JsString := none
deriving DecidableEq

inductive AgentDeliverySource where
  | endpoint (endpoint : AgentRequestEndpoint)
  | connection (connection : AgentConnectionSource)
deriving DecidableEq

/-- `/[\0\r\n\u2028\u2029]/` -/
def breaksLine (text : JsString) : Bool := text.any fun u ↦ decide (u ∈ [0, 13, 10, 0x2028, 0x2029])

/-- A text that is given and not empty. -/
def presentText (value : Option JsString) : Option JsString := value.filter fun text ↦ !text.isEmpty

def checkConnectionField (value : JsString) (field : String) : Except Failure Unit :=
  failIf (value.isEmpty || decide (value ≠ JsString.trim value) || decide (4096 < value.length) || breaksLine value)
    ("Invalid Agent connection source " ++ field ++ ".")

def normalizeAgentConnectionSource (value : AgentConnectionSource) : Except Failure AgentConnectionSource := do
  checkConnectionField value.managerInstanceId "managerInstanceId"
  checkConnectionField value.id "id"
  return { value with
    ledgerOwnerDeviceId := presentText value.ledgerOwnerDeviceId
    authorizationIncarnation := presentText value.authorizationIncarnation }

def checkEndpointField (value : JsString) (message : String) : Except Failure Unit :=
  failIf ((JsString.trim value).isEmpty || decide (value ≠ JsString.trim value) || decide (4096 < value.length)) message

def isDeviceIdHead (u : UInt16) : Bool :=
  (65 ≤ u && u ≤ 90) || (97 ≤ u && u ≤ 122) || (48 ≤ u && u ≤ 57)

/-- `/^[A-Za-z0-9][A-Za-z0-9._:-]{0,191}$/` -/
def isDeviceId : JsString → Bool
  | [] => false
  | u :: rest =>
    isDeviceIdHead u && decide (rest.length ≤ 191) &&
      rest.all fun v ↦ isDeviceIdHead v || decide (v ∈ [46, 95, 58, 45])

def checkInstanceField (value : Option JsString) (message : String) : Except Failure Unit :=
  match value with
  | none => fail message
  | some value => checkEndpointField value message

/-- The checks of the fields that belong to the kind of the endpoint. -/
def checkEndpointOwner (value : AgentRequestEndpoint) : Except Failure Unit :=
  match value.kind with
  | .instance_ => do
      checkInstanceField value.instanceId "Invalid instance endpoint instanceId."
      checkInstanceField value.nodeId "Invalid instance endpoint nodeId."
  | .device => do
      checkInstanceField value.instanceId "Invalid device endpoint owner."
      failIf (value.nodeId.isSome || decide (value.provider ≠ js "deviceAgent")) "Invalid device endpoint owner."
  | .local_ | .service => .ok ()

def normalizeAgentRequestEndpoint (value : AgentRequestEndpoint) : Except Failure AgentRequestEndpoint := do
  checkEndpointField value.managerInstanceId "Invalid Agent endpoint managerInstanceId."
  checkEndpointField value.agentId "Invalid Agent endpoint agentId."
  checkEndpointField value.provider "Invalid Agent endpoint provider."
  checkEndpointField value.sessionId "Invalid Agent endpoint sessionId."
  checkEndpointField value.authorizationIncarnation "Invalid Agent endpoint authorizationIncarnation."
  failIf (value.ownerDeviceId.any fun id ↦ !isDeviceId id) "Invalid endpoint owner device."
  failIf (value.ledgerOwnerDeviceId.any fun id ↦ !isDeviceId id) "Invalid endpoint ledger address."
  checkEndpointOwner value
  return { value with
    ownerDeviceId := presentText value.ownerDeviceId
    ledgerOwnerDeviceId := presentText value.ledgerOwnerDeviceId
    instanceId := if value.kind = .instance_ || value.kind = .device then value.instanceId else none
    nodeId := if value.kind = .instance_ then value.nodeId else none }

def normalizeAgentDeliverySource : AgentDeliverySource → Except Failure AgentDeliverySource
  | .endpoint value => (normalizeAgentRequestEndpoint value).map .endpoint
  | .connection value => (normalizeAgentConnectionSource value).map .connection

/-! ## Who the source is -/

def sameAgentEndpoint (left right : AgentRequestEndpoint) : Bool :=
  left.kind = right.kind && left.managerInstanceId = right.managerInstanceId &&
    left.ownerDeviceId = right.ownerDeviceId && left.instanceId = right.instanceId && left.nodeId = right.nodeId &&
    ((left.kind = .instance_ && right.kind = .instance_) || left.agentId = right.agentId) &&
    left.provider = right.provider && left.sessionId = right.sessionId &&
    left.authorizationIncarnation = right.authorizationIncarnation

/-- `sameAgentEndpoint` when an endpoint may be missing. -/
def sameEndpoint? (left right : Option AgentRequestEndpoint) : Bool :=
  left.any fun left ↦ right.any fun right ↦ sameAgentEndpoint left right

/-- `stableAgentEndpointIdentity`: the agent of an instance is an alias. -/
structure StableEndpoint where
  kind : EndpointKind
  managerInstanceId : JsString
  ownerDeviceId : Option JsString
  instanceId : Option JsString
  nodeId : Option JsString
  agentId : Option JsString
  provider : JsString
  sessionId : JsString
  authorizationIncarnation : Option JsString
deriving DecidableEq

def stableAgentEndpointIdentity (value : AgentRequestEndpoint) : Except Failure StableEndpoint :=
  (normalizeAgentRequestEndpoint value).map fun normalized ↦
    { normalized with
      agentId := if normalized.kind = .instance_ then none else some normalized.agentId
      authorizationIncarnation := some normalized.authorizationIncarnation }

/-- The objects whose JSON text names the source of a delivery. -/
inductive SourceIdentity where
  | connection (managerInstanceId : JsString) (transport : ConnectionTransport) (id : JsString)
  | endpoint (stable : StableEndpoint)
  | peer (managerInstanceId : JsString) (ownerDeviceId : Option JsString) (provider sessionId : JsString)
deriving DecidableEq

def connectionIdentity (value : AgentConnectionSource) : Except Failure SourceIdentity :=
  (normalizeAgentConnectionSource value).map fun connection ↦
    .connection connection.managerInstanceId connection.transport connection.id

def agentDeliverySourceIdentity : AgentDeliverySource → Except Failure SourceIdentity
  | .connection value => connectionIdentity value
  | .endpoint value =>
    (stableAgentEndpointIdentity value).map fun identity ↦
      .endpoint { identity with
        authorizationIncarnation := none
        ownerDeviceId := if identity.kind = .local_ then none else identity.ownerDeviceId }

def externalPeerSource (value : AgentRequestEndpoint) : Bool :=
  (value.kind = .local_ || value.kind = .instance_) && (presentText value.ownerDeviceId).isSome &&
    (presentText value.ledgerOwnerDeviceId).isSome && decide (value.ownerDeviceId ≠ value.ledgerOwnerDeviceId)

def agentDeliveryCallerSourceIdentity : AgentDeliverySource → Except Failure SourceIdentity
  | .connection value => connectionIdentity value
  | .endpoint value =>
    if !externalPeerSource value then agentDeliverySourceIdentity (.endpoint value)
    else
      (normalizeAgentRequestEndpoint value).map fun source ↦
        .peer source.managerInstanceId source.ownerDeviceId source.provider source.sessionId

/-- The arrays whose JSON text is hashed into the id of a delivery. -/
inductive ScopedKey where
  | identity (identity : SourceIdentity) (callerDeliveryId : JsString)
  | fields (managerInstanceId : JsString) (kind : EndpointKind) (instanceId nodeId agentId : Option JsString)
      (provider sessionId callerDeliveryId : JsString)

def scopedKey (source : AgentDeliverySource) (callerDeliveryId : JsString) (legacyAlias : Bool) :
    Except Failure ScopedKey :=
  match source with
  | .connection _ => (agentDeliverySourceIdentity source).map (.identity · callerDeliveryId)
  | .endpoint value =>
    if !legacyAlias && value.kind = .local_ && externalPeerSource value then
      (agentDeliveryCallerSourceIdentity source).map (.identity · callerDeliveryId)
    else if (presentText value.ownerDeviceId).isSome && decide (value.kind ≠ .local_) then
      (agentDeliverySourceIdentity source).map (.identity · callerDeliveryId)
    else
      .ok (.fields value.managerInstanceId value.kind value.instanceId value.nodeId
        (if value.kind = .instance_ && !legacyAlias then none else some value.agentId)
        value.provider value.sessionId callerDeliveryId)

/-- The functions of the host and of other modules that the ledger uses: `createHash("sha256")` on a text
and on the JSON text of options and keys, the texts that `Date.parse` reads, the adapters that are installed,
the paths that name one workspace, and `normalizeRabiMessageContent` with escaped headers. -/
structure Functions where
  sha256 : JsString → JsString
  optionsDigest : EndpointExecutionOptions → JsString
  scopedDigest : ScopedKey → JsString
  isDate : JsString → Bool
  isAgentAdapterType : JsString → Bool
  sameCodexWorkspace : JsString → JsString → Bool
  normalizeRabiMessageContent : JsString → JsString

def endpointExecutionOptionsHash (functions : Functions) (value : EndpointExecutionOptions) :
    Except Failure JsString :=
  (normalizeEndpointExecutionOptions value).map functions.optionsDigest

def agentDeliveryPromptHash (functions : Functions) (prompt : JsString) : JsString :=
  functions.sha256 (unixLines prompt)

def sourceScopedAgentDeliveryId (functions : Functions) (source : AgentDeliverySource) (callerDeliveryId : JsString)
    (legacyAlias : Bool := false) : Except Failure JsString :=
  (scopedKey source callerDeliveryId legacyAlias).map fun key ↦ js "agent-" ++ functions.scopedDigest key

def sameAgentDeliverySource (left right : Option AgentDeliverySource) : Except Failure Bool :=
  match left, right with
  | some (.endpoint left), some (.endpoint right) => .ok (sameAgentEndpoint left right)
  | some (.connection left), some (.connection right) => do
      let leftIdentity ← connectionIdentity left
      let rightIdentity ← connectionIdentity right
      return leftIdentity = rightIdentity
  | _, _ => .ok false

/-! ## Parties -/

structure AgentRequestParty where
  endpoint : Option AgentRequestEndpoint := none
  connection : Option AgentConnectionSource := none
  agentAdapter : Option JsString := none
  threadId : JsString
  agentType : JsString
  threadName : Option JsString := none
  workspace : Option JsString := none
deriving DecidableEq

def agentDeliverySourceForParty (party : AgentRequestParty) : Option AgentDeliverySource :=
  match party.endpoint with
  | some endpoint => some (.endpoint endpoint)
  | none => party.connection.map .connection

/-- Two texts that agree unless one is missing or empty. -/
def agreeIfPresent (agree : JsString → JsString → Bool) (left right : Option JsString) : Bool :=
  match presentText left, presentText right with
  | some left, some right => agree left right
  | _, _ => true

def sameAgentParty (functions : Functions) (left right : AgentRequestParty) : Except Failure Bool :=
  match left.connection, right.connection with
  | some leftConnection, some rightConnection => do
      let leftIdentity ← connectionIdentity leftConnection
      let rightIdentity ← connectionIdentity rightConnection
      return leftIdentity = rightIdentity
  | some _, none | none, some _ => .ok false
  | none, none =>
    if left.endpoint.isSome || right.endpoint.isSome then
      .ok (sameEndpoint? left.endpoint right.endpoint && left.threadId = right.threadId &&
        left.agentAdapter = right.agentAdapter && left.agentType = right.agentType)
    else
      .ok (left.threadId = right.threadId &&
        agreeIfPresent (fun left right ↦ decide (left = right)) left.agentAdapter right.agentAdapter &&
        agreeIfPresent functions.sameCodexWorkspace left.workspace right.workspace)

/-- The coordinates of a reply: a device is found again wherever it is hosted. -/
def sameEndpointAddress (left right : AgentRequestEndpoint) : Bool :=
  if left.kind = .device && right.kind = .device then
    left.managerInstanceId = right.managerInstanceId && left.agentId = right.agentId &&
      left.provider = right.provider && left.sessionId = right.sessionId
  else
    left.kind = right.kind && left.managerInstanceId = right.managerInstanceId &&
      left.ownerDeviceId = right.ownerDeviceId && left.instanceId = right.instanceId && left.nodeId = right.nodeId &&
      ((left.kind = .instance_ && right.kind = .instance_) || left.agentId = right.agentId) &&
      left.provider = right.provider && left.sessionId = right.sessionId

def sameAgentPartyAddress (left right : AgentRequestParty) : Bool :=
  if left.connection.isSome || right.connection.isSome || decide (left.threadId ≠ right.threadId) then false
  else
    match left.endpoint, right.endpoint with
    | some leftEndpoint, some rightEndpoint => sameEndpointAddress leftEndpoint rightEndpoint
    | some _, none | none, some _ => false
    | none, none => agreeIfPresent (fun left right ↦ decide (left = right)) left.agentAdapter right.agentAdapter

inductive PartyRole where
  | source
  | target
deriving DecidableEq

/-- `cleanText` of the ledger: an empty text when there is none. -/
def cleanTextOr (limit : Nat) (value : Option JsString) : JsString := (cleanText limit value).getD []

def parseAgentAdapterType (functions : Functions) (value : JsString) : Option JsString :=
  if value = js "codexDesktop" || value = js "codexApp" then none
  else if functions.isAgentAdapterType value then some value else none

def normalizeOptional {α : Type} (value : Option α) (normalize : α → Except Failure α) : Except Failure (Option α) :=
  match value with
  | none => .ok none
  | some value => (normalize value).map some

def normalizedParty (functions : Functions) (value : AgentRequestParty) (role : PartyRole := .target) :
    Except Failure AgentRequestParty := do
  let threadId := cleanTextOr 4096 (some value.threadId)
  failIf (value.threadId ≠ threadId) "Agent party requires complete, unmodified threadId."
  let endpoint ← normalizeOptional value.endpoint normalizeAgentRequestEndpoint
  let connection ← normalizeOptional value.connection normalizeAgentConnectionSource
  failIf (connection.isSome && (role = .target || endpoint.isSome))
    "A connection source is not an executable task target."
  failIf (endpoint.any fun endpoint ↦ decide (endpoint.sessionId ≠ threadId))
    "Agent endpoint sessionId does not match party threadId."
  let agentType := cleanTextOr 80 (some value.agentType)
  let agentType := if agentType.isEmpty && role = .source then js "agent" else agentType
  failIf (threadId.isEmpty && connection.isNone) "Agent request party requires threadId."
  failIf (agentType.isEmpty && role = .target) "Agent request party requires agentType."
  return {
    endpoint
    connection
    agentAdapter := parseAgentAdapterType functions (cleanTextOr 40 value.agentAdapter)
    threadId
    agentType
    threadName := cleanText 500 value.threadName
    workspace := cleanText 2000 value.workspace }

/-- `callerAgentDeliveryId`, of an id that is given. -/
def callerAgentDeliveryId (value : JsString) : Except Failure JsString :=
  if value.isEmpty || decide (value ≠ JsString.trim value) || decide (100 < value.length) || breaksLine value then
    .error (.contract (js "Invalid deliveryId for Agent delivery.") (js "deliveryId") (js "validation")
      (js ("Use one stable non-empty deliveryId of at most 100 characters for this operation; retain it on " ++
        "retries.")) (js "AGENT_THREAD_CONTRACT_INVALID"))
  else .ok value

end RabiRoute.AgentRequests
