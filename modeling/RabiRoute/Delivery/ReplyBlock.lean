import RabiRoute.Delivery.Reading
import RabiRoute.Delivery.ReplyParameters

/-!
# The block of the reply parameters

The block that a delivery ends with is read back: its record has the id and the policy under names of
their own, and no marker starts in it.
-/

namespace RabiRoute.Delivery

open AgentRequests (unixLines AgentCommunicationPreparation AgentResponsePolicy presentText)
open JsonText

/-! ## The record -/

theorem fieldValues_map (fields : List (JsString × Document)) :
    fieldValues fields = fields.map fun field => (field.1, field.2.value) := by
  induction fields with
  | nil => rfl
  | cons field fields ih =>
    obtain ⟨name, document⟩ := field
    rw [fieldValues, ih]
    rfl

/-- The fields that come after the id and the policy. -/
def otherNames : List JsString :=
  ["inReplyToRequestId", "requestId", "managerInstanceId", "record", "continuation", "responseInstruction", "endpoint",
    "request"].map js

def OtherFields (fields : Fields) : Prop := ∀ f ∈ fields, f.1 ∈ otherNames

theorem otherFields_field {name : String} {value : JsString} (h : js name ∈ otherNames) :
    OtherFields (field name value) := by
  intro f hf
  rw [List.mem_singleton.mp hf]
  exact h

theorem otherFields_optional {name : String} {value : Option JsString} (h : js name ∈ otherNames) :
    OtherFields (optionalField name value) := by
  cases value with
  | none => exact fun _ hf => absurd hf List.not_mem_nil
  | some value => exact otherFields_field h

theorem otherFields_document {name : String} {document : Document} (h : js name ∈ otherNames) :
    OtherFields [(js name, document)] := by
  intro f hf
  rw [List.mem_singleton.mp hf]
  exact h

theorem OtherFields.append {fields more : Fields} (h : OtherFields fields) (hmore : OtherFields more) :
    OtherFields (fields ++ more) := fun f hf => (List.mem_append.mp hf).elim (h f) (hmore f)

theorem otherFields_connectionRecord {connection : AgentRequests.AgentConnectionSource} {requestId : JsString}
    {target : AgentRequests.AgentRequestParty} {fields : Fields}
    (h : connectionRecordParameters connection requestId target = .ok fields) : OtherFields fields := by
  obtain ⟨id, -, h⟩ := Fallible.bind_ok.mp h
  have hother (document : Document) (text : JsString) : OtherFields (field "requestId" requestId ++
      field "managerInstanceId" connection.managerInstanceId ++ [(js "record", document)] ++ field "continuation" text) :=
    (((otherFields_field (by decide +kernel)).append (otherFields_field (by decide +kernel))).append
      (otherFields_document (by decide +kernel))).append (otherFields_field (by decide +kernel))
  cases hledger : presentText connection.ledgerOwnerDeviceId with
  | none =>
    rw [hledger] at h
    obtain ⟨path, -, h⟩ := Fallible.bind_ok.mp h
    cases h
    exact hother _ _
  | some ledger =>
    rw [hledger] at h
    simp only at h
    split at h
    · obtain ⟨path, -, h⟩ := Fallible.bind_ok.mp h
      cases h
      exact hother _ _
    · obtain ⟨path, -, h⟩ := Fallible.bind_ok.mp h
      cases h
      exact hother _ _

theorem otherFields_requestParameters {preparation : AgentCommunicationPreparation} {fields : Fields}
    (h : requestParameters preparation = .ok fields) : OtherFields fields := by
  unfold requestParameters at h
  cases hid : presentText preparation.requestId with
  | none =>
    rw [hid] at h
    cases h
    exact fun _ hf => absurd hf List.not_mem_nil
  | some requestId =>
    rw [hid] at h
    cases hconnection : preparation.source.connection with
    | some connection =>
      rw [hconnection] at h
      obtain ⟨record, hrecord, h⟩ := Fallible.bind_ok.mp h
      have hother := otherFields_connectionRecord hrecord
      cases h
      exact ((hother.append (otherFields_optional (by decide +kernel))).append
        (otherFields_field (by decide +kernel))).append (otherFields_document (by decide +kernel))
    | none =>
      rw [hconnection] at h
      cases h
      exact (((otherFields_field (by decide +kernel)).append (otherFields_optional (by decide +kernel))).append
        (otherFields_field (by decide +kernel))).append (otherFields_document (by decide +kernel)) |>.append
          (otherFields_field (by decide +kernel))

/-- The record starts with the id and the policy, under names that no other field has. -/
theorem agentReplyParameters_eq {preparation : AgentCommunicationPreparation} {document : Document}
    (h : agentReplyParameters preparation = .ok document) :
    ∃ fields, OtherFields fields ∧ document = .record (field "deliveryId" preparation.deliveryId ++
      (field "responsePolicy" (ResponsePolicy.text preparation.responsePolicy) ++ fields)) := by
  obtain ⟨request, hrequest, h⟩ := Fallible.bind_ok.mp h
  refine ⟨optionalField "inReplyToRequestId" (presentText preparation.inReplyToRequestId) ++ request,
    (otherFields_optional (by decide +kernel)).append (otherFields_requestParameters hrequest), ?_⟩
  rw [← Except.ok.inj h]
  simp only [List.append_assoc]

theorem get_other {fields : Fields} {front : List (JsString × Value)} {name : JsString} (h : OtherFields fields) (hname
    : name ∉ otherNames) : Value.get name (.object (front ++ fieldValues fields)) = Value.get name (.object front) := by
  show ((front ++ fieldValues fields).reverse.find? _).map Prod.snd = (front.reverse.find? _).map Prod.snd
  rw [List.reverse_append, List.find?_append, fieldValues_map, List.find?_eq_none.mpr, Option.none_or]
  intro member hmember
  obtain ⟨f, hf, rfl⟩ := List.mem_map.mp (List.mem_reverse.mp hmember)
  have hne : f.1 ≠ name := fun heq => hname (heq ▸ h f hf)
  simpa using hne

theorem parametersId_stringify {preparation : AgentCommunicationPreparation} {document : Document}
    (h : agentReplyParameters preparation = .ok document) (hid : isDeliveryId preparation.deliveryId = true) :
    parametersId (stringify document) = some preparation.deliveryId := by
  obtain ⟨fields, hother, rfl⟩ := agentReplyParameters_eq h
  have hvalue : (Document.record (field "deliveryId" preparation.deliveryId ++
      (field "responsePolicy" (ResponsePolicy.text preparation.responsePolicy) ++ fields))).value =
      .object ([(js "deliveryId", .string preparation.deliveryId),
        (js "responsePolicy", .string (ResponsePolicy.text preparation.responsePolicy))] ++ fieldValues fields) := by
    rw [Document.value, fieldValues_map, fieldValues_map]
    rfl
  unfold parametersId
  rw [parse_stringify, hvalue]
  simp only
  rw [get_other hother (by decide +kernel), get_other hother (by decide +kernel)]
  have hpolicy : Value.get (js "responsePolicy") (.object [(js "deliveryId", .string preparation.deliveryId),
      (js "responsePolicy", .string (ResponsePolicy.text preparation.responsePolicy))]) =
      some (.string (ResponsePolicy.text preparation.responsePolicy)) := by
    unfold Value.get
    simp only [List.reverse_cons, List.reverse_nil, List.nil_append, List.cons_append]
    rw [List.find?_cons_of_pos (by simp only [decide_true])]
    rfl
  have hdelivery : Value.get (js "deliveryId") (.object [(js "deliveryId", .string preparation.deliveryId),
      (js "responsePolicy", .string (ResponsePolicy.text preparation.responsePolicy))]) =
      some (.string preparation.deliveryId) := by
    have hne : js "responsePolicy" ≠ js "deliveryId" := by decide +kernel
    unfold Value.get
    simp only [List.reverse_cons, List.reverse_nil, List.nil_append, List.cons_append]
    rw [List.find?_cons_of_neg (by simpa using hne), List.find?_cons_of_pos (by simp only [decide_true])]
    rfl
  rw [hpolicy, hdelivery]
  cases preparation.responsePolicy <;> simp [Value.text, ResponsePolicy.text, hid]

/-! ## No marker starts in the block -/

theorem last_stringify (fields : List (JsString × Document)) : (stringify (.record fields)).getLast? = some 125 := by
  cases fields with
  | nil =>
    rw [stringify, write]
    rfl
  | cons first fields =>
    rw [stringify, write, ← List.append_assoc, ← List.cons_append]
    exact List.getLast?_concat

theorem clear_stringify (fields : List (JsString × Document)) : Text.Clear replyMarker (stringify (.record fields)) [] := by
  rw [replyMarker_eq]
  exact Text.clear_of_pairs (unbroken_stringify _) (by rw [last_stringify]; decide)

/-- The header of the parameters is not the start of a value. -/
theorem value_marker (bound : Nat) (rest : JsString) : value bound (22238 :: rest) = none := by
  cases bound with
  | zero => rw [value]
  | succ bound =>
    rw [value, skipBlanks_cons (by decide)]
    dsimp only
    rw [if_neg (by decide), if_neg (by decide), if_neg (by decide), if_neg (Text.not_begins (by decide)),
      if_neg (Text.not_begins (by decide)), if_neg (Text.not_begins (by decide))]
    rfl

theorem parse_marker (rest : JsString) : parse (10 :: 91 :: 22238 :: rest) = none := by
  have hitems (bound : Nat) : items bound (22238 :: rest) = none := by
    cases bound with
    | zero => rw [items]
    | succ bound => rw [items, value_marker]
  have hvalue (bound : Nat) : value (bound + 1) (10 :: 91 :: 22238 :: rest) = none := by
    rw [value, show skipBlanks (10 :: 91 :: 22238 :: rest) = 91 :: 22238 :: rest from rfl]
    dsimp only
    rw [if_neg (by decide), if_neg (by decide), if_pos rfl, skipBlanks_cons (by decide), expect_ne (by decide)]
    dsimp only
    rw [hitems]
    rfl
  unfold parse
  rw [hvalue]

/-! ## The last block -/

/-- Two occurrences of the marker overlap in nothing but its line feed at the end. -/
theorem replyMarker_overlap : ∀ n < 8, 0 < n → replyMarker.take n ++ replyMarker.take (9 - n) ≠ replyMarker := by
  decide +kernel

theorem clear_before_marker {front rest : JsString} (h : ¬replyMarker <:+: front ++ [10]) :
    Text.Clear replyMarker front (replyMarker ++ rest) := by
  intro a b hab hb hbegins
  obtain ⟨more, hmore⟩ := hbegins
  have hlength : replyMarker.length = 9 := by decide +kernel
  by_cases hlong : 8 ≤ b.length
  · -- the occurrence ends at most with the line feed that starts the next one
    apply h
    have hshort : replyMarker <+: b ++ [10] := by
      refine List.prefix_of_prefix_length_le ⟨more, hmore⟩ ⟨replyMarker.drop 1 ++ rest, ?_⟩ ?_
      · rw [List.append_assoc, ← List.append_assoc [10], show [10] ++ replyMarker.drop 1 = replyMarker by decide +kernel]
      · rw [hlength, List.length_append, List.length_singleton]
        omega
    rw [hab, List.append_assoc]
    exact hshort.isInfix.trans (List.infix_append_right)
  · have hpos := List.length_pos_of_ne_nil hb
    apply replyMarker_overlap b.length (by omega) hpos
    have htake := congrArg (List.take 9) hmore
    have hfront := congrArg (List.take b.length) hmore
    rw [List.take_append_of_le_length (by omega), List.take_left] at hfront
    rw [← hlength, List.take_left, List.take_append, List.take_of_length_le (by omega),
      List.take_append_of_le_length (by omega), hlength] at htake
    rw [hfront]
    exact htake.symm

/-- The parameters are read where no marker is before them. -/
theorem replyId_last {front parameters : JsString} (h : ¬replyMarker <:+: front ++ [10]) (hparameters : Text.Clear
    replyMarker parameters []) : replyId (front ++ (replyMarker ++ parameters)) = parametersId parameters := by
  have hne : replyMarker ≠ [] := nofun
  have hsplit := Text.split_clear hparameters
  rw [List.append_nil] at hsplit
  unfold replyId
  rw [Text.split_first hne (clear_before_marker h), hsplit]
  show parametersId (parameters ++ []) = _
  rw [List.append_nil]

theorem split_singleton {text first : JsString} {separator : JsString} (hne : separator ≠ [])
    (h : Text.split separator text = [first]) : first = text := by
  by_cases hwithin : separator <:+: text
  · have htwo := Text.two_le_length_split hne hwithin
    rw [h] at htwo
    exact absurd htwo (Nat.not_succ_le_self 1)
  · rw [Text.split_of_absent hwithin] at h
    exact (List.cons.inj h).1.symm

/-- With a marker before them they are not. -/
theorem replyId_hidden {front parameters : JsString} (h : replyMarker <:+: front ++ [10]) :
    replyId (front ++ (replyMarker ++ parameters)) = none := by
  have hne : replyMarker ≠ [] := nofun
  have hcut : front ++ (replyMarker ++ parameters) = (front ++ [10]) ++ (replyMarker.drop 1 ++ parameters) := by
    rw [List.append_assoc, ← List.append_assoc [10], show [10] ++ replyMarker.drop 1 = replyMarker by decide +kernel]
  obtain ⟨first, more, htext, hclear⟩ := Text.exists_first h
  have hclear' : Text.Clear replyMarker first (replyMarker ++ more ++ (replyMarker.drop 1 ++ parameters)) := hclear.extend
  rw [List.append_assoc] at hclear'
  have hsplit : Text.split replyMarker (front ++ (replyMarker ++ parameters)) =
      first :: Text.split replyMarker (more ++ (replyMarker.drop 1 ++ parameters)) := by
    rw [hcut, htext, List.append_assoc, List.append_assoc, Text.split_first hne hclear']
  unfold replyId
  rw [hsplit]
  cases hrest : Text.split replyMarker (more ++ (replyMarker.drop 1 ++ parameters)) with
  | nil => rfl
  | cons second parts =>
    cases parts with
    | cons third parts => rfl
    | nil =>
      -- one piece is left: the occurrence took the line feed, and the header of the parameters stays
      have hpiece := split_singleton hne hrest
      rcases List.eq_nil_or_concat more with rfl | ⟨init, last, rfl⟩
      · show parametersId second = none
        rw [hpiece]
        unfold parametersId
        rw [List.nil_append, show replyMarker.drop 1 ++ parameters = 10 :: 91 :: 22238 :: ((replyMarker.drop 4) ++ parameters) from
          rfl, parse_marker]
      · exfalso
        rw [List.concat_eq_append] at htext hrest
        have hlast : last = 10 := by
          have hend := congrArg List.getLast? htext
          rw [← List.append_assoc, ← List.append_assoc, List.getLast?_concat, List.getLast?_concat] at hend
          exact (Option.some.inj hend).symm
        have hwithin : replyMarker <:+: (init ++ [last]) ++ (replyMarker.drop 1 ++ parameters) := by
          refine ⟨init, parameters, ?_⟩
          rw [hlast, show replyMarker = [10] ++ replyMarker.drop 1 by decide +kernel]
          simp only [List.append_assoc]
          rfl
        have htwo := Text.two_le_length_split hne hwithin
        rw [hrest] at htwo
        exact absurd htwo (Nat.not_succ_le_self 1)

/-- A text that ends as a record does has no suffix of the historical transport. -/
theorem transportSuffix_record {text : JsString} (h : text.getLast? = some 125) : transportSuffix text = none := by
  cases hfound : transportSuffix text with
  | none => rfl
  | some found =>
    obtain ⟨suffix, htext, hsuffix, -⟩ := transportSuffix_iff.mp hfound
    exfalso
    have huuid := hsuffix.2.2
    have hne : suffix.drop transportSuffixHead.length ≠ [] := by
      intro hnil
      rw [hnil] at huuid
      cases huuid
    rw [htext, ← List.take_append_drop transportSuffixHead.length suffix, ← List.append_assoc,
      List.getLast?_append_of_ne_nil _ hne] at h
    exact not_mem_isUuid huuid (by decide) (by decide) (List.mem_of_getLast? h)

/-- The block of reply parameters: the marker and the text of a record. -/
structure ReplyBlock (preparation : AgentCommunicationPreparation) (block parameters : JsString) : Prop where
  marker : 10 :: 10 :: block = replyMarker ++ parameters
  clear : Text.Clear replyMarker parameters []
  last : parameters.getLast? = some 125
  unix : 13 ∉ replyMarker ++ parameters
  read : isDeliveryId preparation.deliveryId = true → parametersId parameters = some preparation.deliveryId

theorem replyBlock_render {preparation : AgentCommunicationPreparation} {block : JsString}
    (h : renderAgentReplyParameters preparation = .ok block) : ∃ parameters, ReplyBlock preparation block parameters := by
  obtain ⟨document, hdocument, rfl⟩ := Fallible.map_ok.mp h
  have hread := parametersId_stringify hdocument
  obtain ⟨fields, -, rfl⟩ := agentReplyParameters_eq hdocument
  refine ⟨_, rfl, clear_stringify _, last_stringify _, fun hmem => ?_, hread⟩
  rcases List.mem_append.mp hmem with hmarker | hparameters
  · exact absurd hmarker (by decide +kernel)
  · exact (plain_stringify _ 13 hparameters).elim (by decide) (by decide)

end RabiRoute.Delivery
