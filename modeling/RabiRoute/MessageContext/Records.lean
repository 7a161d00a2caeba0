import Mathlib.Tactic.Linarith
import RabiRoute.Shared.CleanText

/-!
# Records of the message context

The lines of a ledger and how `messageContextStore.ts` reads them.  A line is one that the store has written,
so that its adapter, channel, conversation key and text are there.  What a line says is trimmed once more when
it is read; that changes nothing but the time and the texts of the speech segments.
-/

namespace RabiRoute.MessageContext

/-- The fields that a query or the catalog of the archives looks at. -/
structure MessageContextRecord where
  id : JsString
  sequence : Option Nat
  time : ℚ
  adapter : JsString
  channel : JsString
  conversationKey : JsString
  kind : Option JsString := none
  sender : Option JsString := none
  target : Option JsString := none
  text : JsString
  messageId : Option JsString := none
  segments : List JsString := []
deriving DecidableEq

/-! ## Texts -/

/-- `replace(/\s+/g, " ")` -/
def collapse : JsString → JsString
  | [] => []
  | u :: rest =>
    if JsString.isWhitespace u then
      if rest.head?.any JsString.isWhitespace then collapse rest else 0x20 :: collapse rest
    else u :: collapse rest

def messageText (value : JsString) : JsString := value.trim

def oneLine (value : JsString) : JsString := collapse (messageText value)

def optionalText (value : Option JsString) : Option JsString :=
  (value.map oneLine).filter fun text ↦ decide (text ≠ [])

def maxSegmentText : Nat := 100000

/-- The texts of `safeSpeechSegments`. -/
def safeSpeechSegments (segments : List JsString) : List JsString :=
  (segments.take 10000).filterMap fun text ↦
    let segmentText := (messageText text).take maxSegmentText
    if segmentText = [] then none else some segmentText

/-- `timestamp` of a number: from 100 000 000 000 on it counts milliseconds. -/
def timestamp (value : ℚ) : ℚ :=
  if value ≤ 0 then 0 else if 100000000000 ≤ value then value / 1000 else value

def positiveInteger (value : Option Nat) : Option Nat := value.filter fun n ↦ decide (0 < n)

/-- `storedRecord`, and with it `normalizeRecord`, of a line; `clock` is `Math.floor(Date.now() / 1_000)`. -/
def storedRecord (clock : ℚ) (line : MessageContextRecord) : Option MessageContextRecord :=
  let text := messageText line.text
  if text = [] then none
  else
    let time := timestamp (timestamp line.time)
    some {
      id := oneLine line.id
      sequence := positiveInteger line.sequence
      time := if time = 0 then clock else time
      adapter := oneLine line.adapter
      channel := oneLine line.channel
      conversationKey := oneLine line.conversationKey
      kind := optionalText line.kind
      sender := optionalText line.sender
      target := optionalText line.target
      text
      messageId := optionalText line.messageId
      segments := safeSpeechSegments line.segments }

def recordsFromFile (clock : ℚ) (lines : List MessageContextRecord) : List MessageContextRecord :=
  lines.filterMap (storedRecord clock)

def dedupeKey (item : MessageContextRecord) : JsString := item.id

/-! ## Reading again -/

theorem head_collapse (s : JsString) :
    (collapse s).head?.any JsString.isWhitespace = s.head?.any JsString.isWhitespace := by
  induction s with
  | nil => rfl
  | cons u rest ih =>
    unfold collapse
    by_cases hu : JsString.isWhitespace u = true
    · rw [if_pos hu]
      by_cases hrest : rest.head?.any JsString.isWhitespace = true
      · rw [if_pos hrest, ih, hrest]
        simp [hu]
      · rw [if_neg hrest]
        simp only [List.head?_cons, Option.any_some, hu]
        decide
    · rw [if_neg hu]
      rfl

theorem collapse_collapse (s : JsString) : collapse (collapse s) = collapse s := by
  induction s with
  | nil => rfl
  | cons u rest ih =>
    by_cases hu : JsString.isWhitespace u = true
    · by_cases hrest : rest.head?.any JsString.isWhitespace = true
      · rw [collapse, if_pos hu, if_pos hrest, ih]
      · rw [collapse, if_pos hu, if_neg hrest, collapse, if_pos (by decide), head_collapse, if_neg hrest, ih]
    · rw [collapse, if_neg hu, collapse, if_neg hu, ih]

theorem collapse_eq_nil {s : JsString} : collapse s = [] ↔ s = [] := by
  cases s with
  | nil => exact iff_of_true rfl rfl
  | cons u rest =>
    refine iff_of_false ?_ (List.cons_ne_nil _ _)
    intro hnil
    have hhead := head_collapse (u :: rest)
    rw [hnil] at hhead
    unfold collapse at hnil
    by_cases hu : JsString.isWhitespace u = true
    · simp [hu] at hhead
    · rw [if_neg hu] at hnil
      cases hnil

theorem last_collapse (s : JsString) :
    (collapse s).getLast?.any JsString.isWhitespace = s.getLast?.any JsString.isWhitespace := by
  induction s with
  | nil => rfl
  | cons u rest ih =>
    -- behind a unit the last one is that of the rest, if there is one
    have hlast : ∀ (v : UInt16) (t : JsString), t ≠ [] → (v :: t).getLast? = t.getLast? := by
      intro v t ht
      rw [List.getLast?_cons, List.getLast?_eq_some_getLast ht]
      rfl
    by_cases hrest : rest = []
    · rw [hrest]
      unfold collapse
      by_cases hu : JsString.isWhitespace u = true
      · rw [if_pos hu]
        show JsString.isWhitespace 0x20 = JsString.isWhitespace u
        rw [hu]
        decide
      · rw [if_neg hu]
        rfl
    · have hcollapse : collapse rest ≠ [] := fun hnil => hrest (collapse_eq_nil.mp hnil)
      rw [hlast u rest hrest, ← ih, collapse]
      split
      · split
        · rfl
        · rw [hlast _ _ hcollapse]
      · rw [hlast _ _ hcollapse]

theorem headed_iff {s : JsString} : s.Headed ↔ s.head?.any JsString.isWhitespace = false := by
  cases s with
  | nil => exact iff_of_true (fun _ _ heq => by cases heq) rfl
  | cons u rest =>
    constructor
    · intro h
      exact h u rest rfl
    · intro h v t heq
      cases heq
      exact h

theorem headed_reverse_trim (s : JsString) : JsString.Headed s.trim.reverse := by
  unfold JsString.trim JsString.trimEnd
  rw [List.reverse_reverse]
  exact JsString.headed_trimStart _

/-- A text that neither starts nor ends with white space is trimmed. -/
theorem trim_of_headed {s : JsString} (h : s.Headed) (h' : JsString.Headed s.reverse) : s.trim = s := by
  have hend : JsString.trimEnd s = s := by
    have hrev := h'.trimStart
    unfold JsString.trimStart at hrev
    unfold JsString.trimEnd
    rw [hrev, List.reverse_reverse]
  unfold JsString.trim
  rw [h.trimStart, hend]

theorem oneLine_oneLine (s : JsString) : oneLine (oneLine s) = oneLine s := by
  have hhead : JsString.Headed (collapse s.trim) := by
    rw [headed_iff, head_collapse, ← headed_iff]
    exact JsString.headed_trim s
  have hlast : JsString.Headed (collapse s.trim).reverse := by
    rw [headed_iff, List.head?_reverse, last_collapse, ← List.head?_reverse, ← headed_iff]
    exact headed_reverse_trim s
  unfold oneLine messageText
  rw [trim_of_headed hhead hlast, collapse_collapse]

theorem timestamp_nonneg (value : ℚ) : 0 ≤ timestamp value := by
  unfold timestamp
  split
  · exact le_refl _
  · rename_i hpos
    split <;> linarith

theorem timestamp_pos {value : ℚ} (h : 0 < value) : 0 < timestamp value := by
  unfold timestamp
  rw [if_neg (not_le.mpr h)]
  split <;> linarith

theorem timestamp_le {value : ℚ} (h : 0 ≤ value) : timestamp value ≤ value := by
  unfold timestamp
  split
  · exact h
  · split <;> linarith

/-- A number of seconds is read as it is. -/
theorem timestamp_eq {value : ℚ} (h : 0 < value) (hsmall : value < 100000000000) : timestamp value = value := by
  unfold timestamp
  rw [if_neg (not_le.mpr h), if_neg (not_le.mpr hsmall)]

theorem storedRecord_time {clock : ℚ} {line record : MessageContextRecord} (h : 0 < line.time)
    (hread : storedRecord clock line = some record) : record.time = timestamp (timestamp line.time) := by
  have hpos := timestamp_pos (timestamp_pos h)
  unfold storedRecord at hread
  dsimp only at hread
  split at hread
  · cases hread
  · rw [← Option.some.inj hread, if_neg hpos.ne']

theorem storedRecord_pos {clock : ℚ} {line record : MessageContextRecord} (h : 0 < line.time)
    (hread : storedRecord clock line = some record) : 0 < record.time := by
  rw [storedRecord_time h hread]
  exact timestamp_pos (timestamp_pos h)

/-- A line with a time is read in the same way at any time. -/
theorem storedRecord_clock {clock clock' : ℚ} {line : MessageContextRecord} (h : 0 < line.time) :
    storedRecord clock line = storedRecord clock' line := by
  have hpos := timestamp_pos (timestamp_pos h)
  unfold storedRecord
  dsimp only
  rw [if_neg hpos.ne', if_neg hpos.ne']

/-- A record that was read, written and is read again has the same identity and place; its time is not later, and
the same when it is in seconds. -/
structure ReadAgain (record again : MessageContextRecord) : Prop where
  id : again.id = record.id
  sequence : again.sequence.getD 0 = record.sequence.getD 0
  time_le : again.time ≤ record.time
  time_eq : record.time < 100000000000 → again.time = record.time

theorem readAgain {clock clock' : ℚ} {line record again : MessageContextRecord} (h : 0 < line.time)
    (hread : storedRecord clock line = some record) (hagain : storedRecord clock' record = some again) :
    ReadAgain record again := by
  have hpos := storedRecord_pos h hread
  have htime := storedRecord_time hpos hagain
  unfold storedRecord at hread hagain
  dsimp only at hread hagain
  split at hread
  · cases hread
  split at hagain
  · cases hagain
  have hrecord := Option.some.inj hread
  have hagain' := Option.some.inj hagain
  constructor
  · rw [← hagain', ← hrecord]
    exact oneLine_oneLine _
  · rw [← hagain']
    show (positiveInteger record.sequence).getD 0 = _
    cases record.sequence with
    | none => rfl
    | some n =>
      cases n with
      | zero => rfl
      | succ n => rfl
  · rw [htime]
    exact le_trans (timestamp_le (timestamp_nonneg _)) (timestamp_le hpos.le)
  · intro hsmall
    rw [htime, timestamp_eq hpos hsmall, timestamp_eq hpos hsmall]

end RabiRoute.MessageContext
