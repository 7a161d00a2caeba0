import RabiRoute.Shared.Fallible
import RabiRoute.Shared.JsString

/-!
# The ports of the gateways

`autoAssignGatewayPorts` goes through the listeners of all gateways: a listener keeps its port if that is valid and not
taken yet, and otherwise gets the next free port at or above a preferred one.  The search only goes up.
-/

namespace RabiRoute.GatewayPorts

open Fallible

structure NapCatInstanceDefinition where
  id : JsString
  name : Option JsString := none
  enabled : Option Bool := none
  autoLoginOnRabiStart : Option Bool := none
  gatewayPort : Nat
  httpUrl : JsString := []
  webuiUrl : Option JsString := none
  accessToken : Option JsString := none
  webuiToken : Option JsString := none
  launchCommand : Option JsString := none
  workingDir : Option JsString := none

/-- A normalized gateway definition: its adapters are listed once each, and it has at most one NapCat instance.  A
port `0` is one that is not set. -/
structure GatewayDefinition where
  id : JsString
  messageInputsDisabled : Bool := false
  messageAdapters : List JsString
  messageAdaptersDisabled : List JsString := []
  /-- The adapters whose policy has `inputEnabled`, and its value. -/
  inputEnabled : List (JsString × Bool) := []
  gatewayPort : Nat
  webhookPort : Option Nat := none
  xiaoaiWebhookPort : Option Nat := none
  rabiLinkWebhookPort : Option Nat := none
  feishuWebhookPort : Option Nat := none
  napcatHttpUrl : Option JsString := none
  napcatWebuiUrl : Option JsString := none
  napcatAccessToken : Option JsString := none
  napcatWebuiToken : Option JsString := none
  napcatInstances : Option NapCatInstanceDefinition := none

/-- What is not part of the repository: the character classes of `sanitizeInstanceId`, and `URL`. -/
structure Platform where
  /-- The text with each run of other characters replaced by `-`. -/
  sanitize : JsString → JsString
  /-- `new URL(value).toString()` -/
  format : JsString → Option JsString
  /-- `portFromUrl(value)`, which is a port of the range or `null`. -/
  portFromUrl : JsString → Option { port : Nat // 1 ≤ port ∧ port ≤ 65535 }

/-- A platform that takes every text as it is. -/
def plainPlatform : Platform where
  sanitize := id
  format := some
  portFromUrl _ := none

/-! ## Adapters -/

def messageAdapterInputEnabled (gateway : GatewayDefinition) (type : JsString) : Bool :=
  (gateway.inputEnabled.lookup type).getD (!gateway.messageAdaptersDisabled.contains type)

def gatewayAdapterTypes (gateway : GatewayDefinition) : List JsString :=
  if gateway.messageInputsDisabled then []
  else gateway.messageAdapters.filter fun type ↦
    !gateway.messageAdaptersDisabled.contains type && messageAdapterInputEnabled gateway type

def hasAdapter (gateway : GatewayDefinition) (type : JsString) : Bool := (gatewayAdapterTypes gateway).contains type

/-- The NapCat instance that is enabled. -/
def enabledNapcatInstance (gateway : GatewayDefinition) : Option NapCatInstanceDefinition :=
  if hasAdapter gateway (js "napcat") then gateway.napcatInstances.filter fun item ↦ item.enabled != some false
  else none

/-! ## Ports -/

/-- `a || b`, for ports. -/
def orPort (a b : Nat) : Nat := if a = 0 then b else a

def ValidPort (port : Nat) : Prop := 1 ≤ port ∧ port ≤ 65535

instance (port : Nat) : Decidable (ValidPort port) := inferInstanceAs (Decidable (_ ∧ _))

def assertValidPort (value : Nat) (label : JsString) : Except JsString Unit :=
  if ValidPort value then .ok ()
  else .error (js "Invalid " ++ label ++ js ": " ++ js (toString value) ++
    js ". Port must be an integer from 1 to 65535.")

def noAvailablePort : JsString := js "No available port in the 1-65535 range."

/-- The first port from `preferred` on that is not used, which is then used. -/
def nextAvailablePort (used : List Nat) (preferred : Nat) : Except JsString (Nat × List Nat) :=
  let port := if ValidPort preferred then preferred else 8790
  match (List.range' port (65536 - port)).find? (· ∉ used) with
  | some port => .ok (port, used ++ [port])
  | none => .error noAvailablePort

/-- `Math.max(1, Math.min(65535, Number(fallback) || 8790))` -/
def preferredPort (fallback : Nat) : Nat := max 1 (min 65535 (orPort fallback 8790))

def assignIngress (used : List Nat) (value : Option Nat) (fallback : Nat) : Except JsString (Nat × List Nat) :=
  let current := value.getD 0
  if ValidPort current ∧ current ∉ used then .ok (current, used ++ [current])
  else nextAvailablePort used (preferredPort fallback)

/-! ## NapCat instances -/

section

variable (platform : Platform)

def sanitizeInstanceId (value fallback : JsString) : JsString :=
  let text := platform.sanitize value.trim
  if text = [] then fallback else text

/-- `value?.trim() || undefined` -/
def trimmed (value : Option JsString) : Option JsString := (value.map JsString.trim).filter (· ≠ [])

def normalizeNapCatInstances (definition : GatewayDefinition) : Except JsString (Option NapCatInstanceDefinition) :=
  match definition.napcatInstances with
  | none => .ok none
  | some item => do
      let id := sanitizeInstanceId platform item.id (js "default")
      let gatewayPort := orPort item.gatewayPort (orPort definition.gatewayPort 8790)
      assertValidPort gatewayPort (js "NapCat instance port for " ++ definition.id ++ js "/" ++ id)
      .ok (some {
        id
        name := some ((trimmed item.name).getD id)
        enabled := some (item.enabled != some false)
        autoLoginOnRabiStart := some (item.autoLoginOnRabiStart != some false)
        gatewayPort
        httpUrl := (trimmed (some item.httpUrl)).getD ((definition.napcatHttpUrl.filter (· ≠ [])).getD
          (js "http://127.0.0.1:3000"))
        webuiUrl := some ((trimmed item.webuiUrl).getD ((definition.napcatWebuiUrl.filter (· ≠ [])).getD
          (js "http://127.0.0.1:6099/webui")))
        accessToken := some (item.accessToken.getD (definition.napcatAccessToken.getD []))
        webuiToken := some (item.webuiToken.getD (definition.napcatWebuiToken.getD []))
        launchCommand := trimmed item.launchCommand
        workingDir := trimmed item.workingDir })

def syncPrimaryNapCatInstanceFields (definition : GatewayDefinition) (instances : Option NapCatInstanceDefinition) :
    Except JsString GatewayDefinition := do
  match ← normalizeNapCatInstances platform { definition with napcatInstances := instances } with
  | none => .ok { definition with napcatInstances := none }
  | some primary => .ok {
      definition with
      napcatInstances := some primary
      gatewayPort := primary.gatewayPort
      napcatHttpUrl := some primary.httpUrl
      napcatWebuiUrl := primary.webuiUrl
      napcatAccessToken := some (primary.accessToken.getD [])
      napcatWebuiToken := some (primary.webuiToken.getD []) }

/-- `toString().replace(/\/$/, "")` -/
def dropSlash (text : JsString) : JsString := if text.getLast? = some 47 then text.dropLast else text

def normalizeHttpUrl (value : JsString) (fallbackPort : Nat) : JsString :=
  let fallback := js "http://127.0.0.1:" ++ js (toString fallbackPort)
  dropSlash ((platform.format (if value = [] then fallback else value)).getD
    ((platform.format fallback).getD fallback))

/-! ## Listeners -/

/-- A listener of the gateways with an adapter: the field of its port, what is preferred instead, and what is done
with the port that it gets. -/
structure Listener where
  adapter : JsString
  value : GatewayDefinition → Option Nat
  fallback : GatewayDefinition → Nat
  put : GatewayDefinition → Nat → Except JsString GatewayDefinition

/-- The WebSocket of NapCat: of the enabled instance, or of the gateway when there is none. -/
def napcatListener : Listener where
  adapter := js "napcat"
  value gateway := some ((enabledNapcatInstance gateway).elim gateway.gatewayPort NapCatInstanceDefinition.gatewayPort)
  fallback gateway :=
    if (enabledNapcatInstance gateway).isSome then orPort gateway.gatewayPort 8790 + 1 else 8790
  put gateway port :=
    match enabledNapcatInstance gateway with
    | none => .ok { gateway with gatewayPort := port }
    | some item =>
      let httpUrl := if item.httpUrl = [] then gateway.napcatHttpUrl.getD [] else item.httpUrl
      syncPrimaryNapCatInstanceFields platform gateway
        (some { item with gatewayPort := port, httpUrl := normalizeHttpUrl platform httpUrl 3000 })

def webhookListener : Listener where
  adapter := js "webhook"
  value gateway := gateway.webhookPort
  fallback gateway := orPort gateway.gatewayPort 8790 + 1
  put gateway port := .ok { gateway with webhookPort := some port }

def xiaoaiListener : Listener where
  adapter := js "xiaoai"
  value gateway := gateway.xiaoaiWebhookPort
  fallback gateway := orPort (gateway.webhookPort.getD 0) (orPort gateway.gatewayPort 8790) + 1
  put gateway port := .ok { gateway with xiaoaiWebhookPort := some port }

def rabilinkListener : Listener where
  adapter := js "rabilink"
  value gateway := gateway.rabiLinkWebhookPort
  fallback gateway := orPort (gateway.webhookPort.getD 0) (orPort gateway.gatewayPort 8790) + 1
  put gateway port := .ok { gateway with rabiLinkWebhookPort := some port }

def feishuListener : Listener where
  adapter := js "feishu"
  value gateway := gateway.feishuWebhookPort
  fallback gateway := orPort gateway.gatewayPort 8790 + 1
  put gateway port := .ok { gateway with feishuWebhookPort := some port }

/-- The listeners in the order in which a gateway gets their ports. -/
def listeners : List Listener :=
  [napcatListener platform, webhookListener, xiaoaiListener, rabilinkListener, feishuListener]

def assignListener (s : List Nat × GatewayDefinition) (listener : Listener) :
    Except JsString (List Nat × GatewayDefinition) :=
  if hasAdapter s.2 listener.adapter then do
    let (port, used) ← assignIngress s.1 (listener.value s.2) (listener.fallback s.2)
    let gateway ← listener.put s.2 port
    .ok (used, gateway)
  else .ok s

/-- The ports that the gateways get, and those that are used then. -/
def assignGateways (used : List Nat) : List GatewayDefinition → Except JsString (List Nat × List GatewayDefinition)
  | [] => .ok (used, [])
  | gateway :: rest => do
      let (used, gateway) ← (listeners platform).foldlM assignListener (used, gateway)
      let (used, rest) ← assignGateways used rest
      .ok (used, gateway :: rest)

/-- The port of the manager, if it is one. -/
def publishedManagerPort (managerPort : Option Nat) : List Nat :=
  (managerPort.filter fun port ↦ decide (ValidPort port)).toList

def autoAssignGatewayPorts (gateways : List GatewayDefinition) (managerPort : Option Nat) :
    Except JsString (List GatewayDefinition) := do
  let (_, gateways) ← assignGateways platform (publishedManagerPort managerPort) gateways
  .ok gateways

end

/-! ## Claims -/

inductive GatewayPortClaimKind where
  | manager | gatewayWs | napcatWs | napcatHttp | webhook | xiaoaiWebhook | rabilinkWebhook | feishuWebhook
deriving DecidableEq

structure GatewayPortClaim where
  port : Nat
  label : JsString
  kind : GatewayPortClaimKind
  gatewayId : Option JsString := none
  instanceId : Option JsString := none

/-- `claim`; `none` is `null` or `undefined`. -/
def claim (port : Option Nat) (label : JsString) (kind : GatewayPortClaimKind) (gatewayId instanceId : Option JsString) :
    List GatewayPortClaim :=
  (port.map fun port ↦ { port, label, kind, gatewayId, instanceId }).toList

section

variable (platform : Platform)

def claimsOf (gateway : GatewayDefinition) : List GatewayPortClaim :=
  let has := hasAdapter gateway
  (if has (js "napcat") && (enabledNapcatInstance gateway).isNone then
    claim (some gateway.gatewayPort) (gateway.id ++ js " gateway WS") .gatewayWs (some gateway.id) none else []) ++
  (if has (js "webhook") then
    claim (some (gateway.webhookPort.getD gateway.gatewayPort)) (gateway.id ++ js " webhook") .webhook
      (some gateway.id) none else []) ++
  (if has (js "xiaoai") then
    claim (some (gateway.xiaoaiWebhookPort.getD (gateway.webhookPort.getD gateway.gatewayPort)))
      (gateway.id ++ js " XiaoAI webhook") .xiaoaiWebhook (some gateway.id) none else []) ++
  (if has (js "rabilink") then
    claim (some (gateway.rabiLinkWebhookPort.getD (gateway.webhookPort.getD gateway.gatewayPort)))
      (gateway.id ++ js " RabiLink webhook") .rabilinkWebhook (some gateway.id) none else []) ++
  (if has (js "feishu") then
    claim (some (gateway.feishuWebhookPort.getD gateway.gatewayPort)) (gateway.id ++ js " Feishu webhook")
      .feishuWebhook (some gateway.id) none else []) ++
  match enabledNapcatInstance gateway with
  | none => []
  | some item =>
    let label := gateway.id ++ js "/" ++ item.id
    claim (some item.gatewayPort) (label ++ js " RabiRoute WS") .napcatWs (some gateway.id) (some item.id) ++
      claim ((platform.portFromUrl item.httpUrl).map Subtype.val) (label ++ js " NapCat HTTP") .napcatHttp
        (some gateway.id) (some item.id)

def collectGatewayPortClaims (gateways : List GatewayDefinition) (managerPort : Option Nat) :
    Except JsString (List GatewayPortClaim) := do
  let claims := claim managerPort (js "manager") .manager none none ++ gateways.flatMap (claimsOf platform)
  claims.forM fun c ↦ assertValidPort c.port c.label
  .ok claims

/-- The listeners of the gateways have ports of their own.  NapCat's HTTP service is not a listener. -/
def validateGatewayPortConflicts (gateways : List GatewayDefinition) : Except JsString Unit := do
  let claims ← collectGatewayPortClaims platform gateways none
  let _ ← (claims.filter (·.kind ≠ .napcatHttp)).foldlM (fun ports claim ↦
    match ports.find? (·.port = claim.port) with
    | some existing => .error (js "Port conflict: " ++ claim.label ++ js " uses " ++ js (toString claim.port) ++
        js ", already used by " ++ existing.label ++ js ".")
    | none => .ok (ports ++ [claim])) ([] : List GatewayPortClaim)
  .ok ()

end

end RabiRoute.GatewayPorts
