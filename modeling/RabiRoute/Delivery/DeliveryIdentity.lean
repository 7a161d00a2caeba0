import RabiRoute.AgentRequests.Party
import RabiRoute.JsonText.Parse
import RabiRoute.Text.Split

/-!
# The delivery id of a prompt

`deliveryIdFromPrompt` looks for the id in the header of an envelope, in its reply parameters, in the
suffix of the historical transport and in the legacy contract, in this order.
-/

namespace RabiRoute.Delivery

open AgentRequests (unixLines)
open JsonText

/-! ## Ids -/

def isHexDigit (u : UInt16) : Bool := (48 ≤ u && u ≤ 57) || (97 ≤ u && u ≤ 102)

/-- The places of the hyphens in a UUID. -/
def uuidHyphens : List Nat := [8, 13, 18, 23]

/-- A whole text that matches `uuid` with the flag `i`. -/
def isUuid (text : JsString) : Bool :=
  text.length == 36 && text.zipIdx.all fun (u, i) ↦
    if i ∈ uuidHyphens then u == 45 else isHexDigit (JsString.lower u)

/-- `/^agent-[0-9a-f]{64}$/` -/
def isSourceScopedId (text : JsString) : Bool :=
  (js "agent-").isPrefixOf text && (text.drop 6).length == 64 && (text.drop 6).all isHexDigit

def isDeliveryId (text : JsString) : Bool := isUuid text || isSourceScopedId text

/-! ## The envelope -/

/-- `/^label([^\n]+)$/m.exec(text)?.[1]`, for a label without line terminators; `start` says that a line
starts here. -/
def fieldAt (label : JsString) (start : Bool) : JsString → Option JsString
  | [] => none
  | u :: rest =>
    let value := ((u :: rest).drop label.length).takeWhile fun u ↦ u != 10
    if start && label.isPrefixOf (u :: rest) && !value.isEmpty then some value
    else fieldAt label (u == 10 || u == 13 || u == 0x2028 || u == 0x2029) rest

def replyMarker : JsString := js "\n\n[回传参数]\n"

/-- The id that the reply parameters name. -/
def parametersId (parameters : JsString) : Option JsString :=
  match parse parameters with
  | none => none
  | some parameters =>
    if parameters.get (js "responsePolicy") |>.bind Value.text |>.any fun policy ↦
        policy == js "required" || policy == js "none" then
      ((parameters.get (js "deliveryId")).bind Value.text).filter isDeliveryId
    else none

/-- The second half of `currentEnvelopeDeliveryId`: the text must have one part after the marker. -/
def replyId (text : JsString) : Option JsString :=
  match Text.split replyMarker text with
  | [_, parameters] => parametersId parameters
  | _ => none

/-- The id in the header, or else in the reply parameters; `none` is the empty text. -/
def envelopeId (text content label : JsString) : Option JsString :=
  match Text.indexOf content text with
  | none => none
  | some headerEnd =>
    match (fieldAt label true (text.take headerEnd)).filter isDeliveryId with
    | some headerId => some headerId
    | none => replyId text

def currentEnvelopeDeliveryId (prompt : JsString) : Option JsString :=
  let text := unixLines prompt
  if js "## 消息源\n" <+: text then envelopeId text (js "\n\n## 消息内容\n") (js "- 投递 ID：")
  else if js "[消息源]\n" <+: text then envelopeId text (js "\n\n[消息内容]\n") (js "投递 ID：")
  else none

/-! ## The legacy forms -/

def transportLabel : JsString := js "[投递编号]"

def transportSuffixHead : JsString := js "\n\n[投递编号]\ndeliveryId: "

/-- `transportSuffix.exec(text)`: the text before the suffix, and its id.  The suffix ends the text. -/
def transportSuffix (text : JsString) : Option (JsString × JsString) :=
  let before := text.length - (transportSuffixHead.length + 36)
  let suffix := text.drop before
  if suffix.length = transportSuffixHead.length + 36 ∧
      (suffix.take transportSuffixHead.length).map JsString.lower = transportSuffixHead.map JsString.lower ∧
      isUuid (suffix.drop transportSuffixHead.length) then
    some (text.take before, suffix.drop transportSuffixHead.length)
  else none

def withoutLegacyTransportSuffix (prompt : JsString) : Option JsString :=
  let text := unixLines prompt
  match transportSuffix text with
  | none => none
  | some (before, _) => if (Text.split transportLabel text).length = 2 then some before else none

/-- The legacy contract, with `undefined` as the empty text. -/
def legacyContract (prompt : JsString) : JsString :=
  if js "[消息源]\n" <+: prompt then ((Text.split (js "\n\n[Agent 回复合同]\n") prompt)[1]?).getD []
  else if js "[Agent 回复合同]\n" <+: prompt then prompt.drop (js "[Agent 回复合同]\n").length
  else prompt

/-- `new RegExp("^(?:本次投递 |本批投递 )?deliveryId[：:] *(uuid)(?:\\n|$)", "i").exec(text)?.[1]` -/
def legacyContractId (text : JsString) : Option JsString :=
  let text := if js "本次投递 " <+: text ∨ js "本批投递 " <+: text then text.drop 5 else text
  let name := (text.take 10).map JsString.lower
  let colon := (text.drop 10).head?
  let text := (text.drop 11).dropWhile fun u ↦ u == 32
  if name = js "deliveryid" ∧ (colon = some 0xFF1A ∨ colon = some 58) ∧ isUuid (text.take 36) ∧
      (text.drop 36).head?.all fun u ↦ u == 10 then
    some (text.take 36)
  else none

/-- `deliveryIdFromPrompt`, once the line ends of its prompt are replaced. -/
def deliveryIdOfText (prompt : JsString) : Option JsString :=
  match currentEnvelopeDeliveryId prompt with
  | some current => some current
  | none =>
    let before := withoutLegacyTransportSuffix prompt
    match (before.filter fun before ↦ !before.isEmpty).bind currentEnvelopeDeliveryId with
    | some original => some original
    | none =>
      match before.bind fun _ ↦ transportSuffix prompt with
      | some (_, tail) => some tail
      | none => legacyContractId (legacyContract prompt)

/-- `deliveryIdFromPrompt`; it answers the empty text where there is no id. -/
def deliveryIdFromPrompt (prompt : JsString) : JsString := (deliveryIdOfText (unixLines prompt)).getD []

end RabiRoute.Delivery
