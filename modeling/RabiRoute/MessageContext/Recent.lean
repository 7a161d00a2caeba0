import Mathlib.Data.Rat.Floor
import RabiRoute.Collections.FirstByKey
import RabiRoute.MessageContext.Archives

/-!
# Recent records

`recentMessageContextItems`: the archives and the current file of each directory, the first record of each
identity, what the query takes of them, and the last ones of that.
-/

open Collections

namespace RabiRoute.MessageContext

/-- A number that is missing or not finite is `none`. -/
structure RecentMessageContextQuery where
  limit : ℚ
  adapter : Option JsString := none
  channel : Option JsString := none
  kind : Option JsString := none
  sender : Option JsString := none
  target : Option JsString := none
  query : Option JsString := none
  /-- `queryMatch === "all"` -/
  queryMatchAll : Bool := false
  conversationKey : Option JsString := none
  excludedMessageIds : List JsString := []
  maxChars : Option ℚ := none
  includeArchives : Bool := false
  fromTime : Option ℚ := none
  toTime : Option ℚ := none
  afterSequence : Option ℚ := none
  beforeSequence : Option ℚ := none

/-- A data directory: its catalog and its files. -/
structure Directory where
  archives : List Archive
  current : List MessageContextRecord
  indexExists : Bool
  legacyItems : List MessageContextRecord

def defaultMaxChars : ℚ := 9007199254740991

def recordOverheadChars : Nat := 160

/-! ## The query -/

def isSeparator (u : UInt16) : Bool := JsString.isWhitespace u || u ∈ js ",，、"

/-- `split(/[\s,，、]+/)`, without the empty parts. -/
def splitTerms (text : JsString) : List JsString := (text.splitOnP isSeparator).filter fun term ↦ decide (term ≠ [])

def queryTerms (toLocaleLowerCase : JsString → JsString) (query : RecentMessageContextQuery) : List JsString :=
  ((splitTerms (query.query.getD [])).map fun term ↦ toLocaleLowerCase term.trim).filter fun term ↦ decide (term ≠ [])

/-- `if (wanted && value !== wanted) return false` -/
def admits (wanted value : Option JsString) : Bool := wanted.all fun text ↦ text = [] || decide (value = some text)

def haystack (toLocaleLowerCase : JsString → JsString) (item : MessageContextRecord) : JsString :=
  toLocaleLowerCase <| List.flatten <| List.intersperse (js " ") <|
    [some item.text, item.sender, item.target].filterMap fun part ↦ part.filter fun text ↦ decide (text ≠ [])

def matchesMessageQuery (toLocaleLowerCase : JsString → JsString) (item : MessageContextRecord)
    (query : RecentMessageContextQuery) (terms : List JsString) : Bool :=
  let sequence : ℚ := item.sequence.getD 0
  let has (term : JsString) : Bool := decide (term <:+: haystack toLocaleLowerCase item)
  admits query.adapter item.adapter && admits query.channel item.channel && admits query.kind item.kind &&
    admits query.sender item.sender && admits query.target item.target &&
    admits query.conversationKey item.conversationKey &&
    !(query.afterSequence.any fun bound ↦ decide (sequence ≤ bound)) &&
    !(query.beforeSequence.any fun bound ↦ decide (bound < sequence)) &&
    (terms.isEmpty || if query.queryMatchAll then terms.all has else terms.any has) &&
    !(query.fromTime.any fun bound ↦ decide (item.time < bound)) &&
    !(query.toTime.any fun bound ↦ decide (bound < item.time)) &&
    !decide (item.messageId.getD [] ∈ query.excludedMessageIds)

def charCost (item : MessageContextRecord) : Nat :=
  item.text.length + (item.segments.map fun text ↦ text.length + 40).sum + recordOverheadChars

/-! ## The archives -/

/-- The noted bounds leave no record for the query. -/
def Archive.outside (query : RecentMessageContextQuery) (archive : Archive) : Bool :=
  archive.verifiedBounds.any fun bounds ↦
    query.fromTime.any (fun bound ↦ decide (bounds.maxTime < bound)) ||
    query.toTime.any (fun bound ↦ decide (bound < bounds.minTime)) ||
    query.afterSequence.any (fun bound ↦ decide ((bounds.maxSequence : ℚ) ≤ bound)) ||
    query.beforeSequence.any fun bound ↦ decide (bound < (bounds.minSequence : ℚ))

section

variable (hashes : Hashes) (clock : ℚ)

def Archive.records (archive : Archive) : List MessageContextRecord := recordsFromFile clock archive.lines

/-- `archiveRecords`; `outside` says which archives need not be loaded. -/
def archiveRecords (archives : List Archive) (outside : Archive → Bool) (current : List MessageContextRecord) :
    List MessageContextRecord :=
  let loaded := archives.filter fun archive ↦ !outside archive
  let candidateKeys := current.map dedupeKey ++ loaded.flatMap fun archive ↦ (archive.records clock).map dedupeKey
  archives.flatMap fun archive ↦
    if !outside archive then archive.records clock
    else if candidateKeys.any (archive.archiveIdentityProbe hashes) then archive.records clock
    else []

/-- Every archive is read. -/
def allArchiveRecords (archives : List Archive) : List MessageContextRecord :=
  archives.flatMap (Archive.records clock)

/-- `selected` is in the order in which the loop finds its items, from the end. -/
def selectFromEnd (limit : Nat) (maxChars : ℚ) : List MessageContextRecord → List MessageContextRecord → Nat →
    List MessageContextRecord
  | [], selected, _ => selected
  | item :: rest, selected, chars =>
    if limit ≤ selected.length then selected
    else if selected ≠ [] ∧ maxChars < (chars + charCost item : ℕ) then selectFromEnd limit maxChars rest selected chars
    else selectFromEnd limit maxChars rest (selected ++ [item]) (chars + charCost item)

/-- What a query reads of a directory. -/
def Directory.records (archived : List MessageContextRecord → List MessageContextRecord) (includeArchives : Bool)
    (dir : Directory) : List MessageContextRecord :=
  let current := recordsFromFile clock dir.current
  let compatibleCurrent := if dir.indexExists || !current.isEmpty then current else dir.legacyItems
  if includeArchives then archived current ++ compatibleCurrent else compatibleCurrent

variable (toLocaleLowerCase : JsString → JsString)

/-- `recentMessageContextItems`, with `archived` to read the archives of a directory. -/
def recentItems (archived : Directory → List MessageContextRecord → List MessageContextRecord) (dirs : List Directory)
    (query : RecentMessageContextQuery) : List MessageContextRecord :=
  let limit := max 0 ⌊query.limit⌋
  if limit = 0 then []
  else
    let maxChars : ℚ := max 1 ⌊query.maxChars.getD defaultMaxChars⌋
    let byId := (dirs.flatMap fun dir ↦ dir.records clock (archived dir) query.includeArchives).foldl
      (addFirst dedupeKey) []
    let filtered := byId.filter fun item ↦
      matchesMessageQuery toLocaleLowerCase item query (queryTerms toLocaleLowerCase query)
    (selectFromEnd limit.toNat maxChars filtered.reverse [] 0).reverse

/-- The directories are distinct and resolved. -/
def recentMessageContextItems (dirs : List Directory) (query : RecentMessageContextQuery) : List MessageContextRecord :=
  recentItems clock toLocaleLowerCase
    (fun dir current ↦ archiveRecords hashes clock dir.archives
      (fun archive ↦ !decide (1 < dirs.length) && archive.outside query) current) dirs query

/-- The same function with every archive read. -/
def unprunedMessageContextItems (dirs : List Directory) (query : RecentMessageContextQuery) :
    List MessageContextRecord :=
  recentItems clock toLocaleLowerCase (fun dir _ ↦ allArchiveRecords clock dir.archives) dirs query

end

end RabiRoute.MessageContext
