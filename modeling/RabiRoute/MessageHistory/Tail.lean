import RabiRoute.JsonText.Parse

/-!
# The tail of a message history

`readMessageHistoryTail` and `verifyMessageHistoryPrefix` on the bytes of one file, which stays as it is during a
call.  A hash is the bytes that it was updated with, and its digest is taken by `sha256`.
-/

namespace RabiRoute.MessageHistory

open JsonText (Value)

abbrev Bytes := List UInt8

/-- What the reader calls: `toString("utf8")`, `messageHistoryStorage.normalizeStored` and SHA-256. -/
structure Formats (ρ : Type) where
  utf8 : Bytes → JsString
  normalizeStored : List (JsString × Value) → Option ρ
  sha256 : Bytes → JsString

/-- `MESSAGE_HISTORY_INDEX_RECORD_BYTES` -/
def messageHistoryIndexRecordBytes : Nat := 8 * 1024 * 1024

/-- `MESSAGE_HISTORY_TAIL_FORMAT` -/
def messageHistoryTailFormat : Nat := 1

def chunkBytes : Nat := 128 * 1024

inductive RecordIssue where
  | malformed
  | oversized
  | unrecognized

structure Issues where
  malformed : Nat
  oversized : Nat
  unrecognized : Nat

def Issues.zero : Issues := ⟨0, 0, 0⟩

def Issues.add (issues : Issues) : RecordIssue → Issues
  | .malformed => { issues with malformed := issues.malformed + 1 }
  | .oversized => { issues with oversized := issues.oversized + 1 }
  | .unrecognized => { issues with unrecognized := issues.unrecognized + 1 }

structure IssueSample where
  offset : Nat
  bytes : Nat
  reason : RecordIssue

structure MessageHistoryCursor where
  offset : Nat
  records : Nat
  prefixHash : JsString
  identity : JsString
  epoch : JsString
  /-- True when it is absent. -/
  atLineBoundary : Bool
  format : Nat
  issues : Issues
  issueSamples : List IssueSample
  pendingBytes : Option Nat

structure MessageHistoryTailRow (ρ : Type) where
  position : Nat
  record : ρ
  checkpoint : Option MessageHistoryCursor

structure PrefixSnapshot where
  bytes : Nat
  identity : JsString
  hash : JsString
deriving DecidableEq

structure PrefixState where
  cursor : MessageHistoryCursor
  snapshot : PrefixSnapshot
  hash : Bytes

/-- What is remembered of the file. -/
structure PrefixEntry where
  verified : Option PrefixState
  pending : Option PrefixState

/-! ## One line -/

/-- A `RecordBuffer`. -/
@[ext]
structure RecordBuffer where
  bytes : Nat
  chunks : Bytes
  /-- A record that is too long is not kept. -/
  bounded : messageHistoryIndexRecordBytes < bytes → chunks = []

namespace RecordBuffer

def empty : RecordBuffer := ⟨0, [], fun _ ↦ rfl⟩

def append (buffer : RecordBuffer) (part : Bytes) : RecordBuffer where
  bytes := buffer.bytes + part.length
  chunks := if buffer.bytes + part.length ≤ messageHistoryIndexRecordBytes then buffer.chunks ++ part else []
  bounded h := if_neg (Nat.not_le.mpr h)

end RecordBuffer

variable {ρ : Type} (x : Formats ρ)

/-- `none` where the record is too long. -/
def RecordBuffer.text (buffer : RecordBuffer) : Option JsString :=
  if messageHistoryIndexRecordBytes < buffer.bytes then none else some (JsString.trim (x.utf8 buffer.chunks))

/-- What a line is, once it has a text. -/
def readLine (text : JsString) : Except RecordIssue ρ :=
  match JsonText.parse text with
  | none => .error .malformed
  | some (.object members) =>
    match x.normalizeStored members with
    | some record => .ok record
    | none => .error .unrecognized
  | some _ => .error .unrecognized

def normalizedLine (text : JsString) : Option ρ := (readLine x text).toOption

/-! ## The scan -/

structure Scan (ρ : Type) where
  hash : Bytes
  lineHash : Bytes
  confirmed : Nat
  records : Nat
  pending : RecordBuffer
  issues : Issues
  issueSamples : List IssueSample
  rows : List (MessageHistoryTailRow ρ)

namespace Scan

variable (s : Scan ρ)

def issue (reason : RecordIssue) : Scan ρ :=
  { s with
    issues := s.issues.add reason
    issueSamples :=
      if s.issueSamples.length < 8 then
        s.issueSamples ++ [⟨s.confirmed - s.pending.bytes, s.pending.bytes, reason⟩]
      else s.issueSamples }

/-- The cursor of what was confirmed so far. -/
def cursor (identity epoch : JsString) (atLineBoundary : Bool) : MessageHistoryCursor where
  offset := s.confirmed
  records := s.records
  prefixHash := x.sha256 s.hash
  identity
  epoch
  atLineBoundary
  format := messageHistoryTailFormat
  issues := s.issues
  issueSamples := s.issueSamples
  pendingBytes := none

def addRow (identity epoch : JsString) (atLineBoundary : Bool) (record : ρ) : Scan ρ :=
  let position := s.records
  let s := { s with records := s.records + 1 }
  let checkpoint := if s.records % 5000 = 0 then some (s.cursor x identity epoch atLineBoundary) else none
  { s with rows := s.rows ++ [⟨position, record, checkpoint⟩] }

def consume (identity epoch : JsString) (text : Option JsString) (atLineBoundary : Bool) : Scan ρ :=
  match text with
  | none => s.issue .oversized
  | some text =>
    if text.isEmpty then s
    else
      match readLine x text with
      | .ok record => s.addRow x identity epoch atLineBoundary record
      | .error reason => s.issue reason

/-- Bytes that do not end a line. -/
def take (part : Bytes) : Scan ρ :=
  { s with pending := s.pending.append part, lineHash := s.lineHash ++ part }

/-- Bytes that end a line, and where they end. -/
def line (identity epoch : JsString) (part : Bytes) (confirmed : Nat) : Scan ρ :=
  let s := s.take part
  let s := { s with hash := s.lineHash, confirmed }
  { s.consume x identity epoch (s.pending.text x) true with pending := .empty }

end Scan

/-- Up to the first line feed, and the rest. -/
def splitLine (chunk : Bytes) : Option (Bytes × Bytes) :=
  (chunk.findIdx? (· == 10)).map fun place ↦ (chunk.take (place + 1), chunk.drop (place + 1))

/-- The lines of a chunk, of which so many bytes come before `chunk`. -/
def readChunk (identity epoch : JsString) : Nat → Nat → Bytes → Scan ρ → Scan ρ
  | 0, _, _, s => s
  | fuel + 1, offset, chunk, s =>
    match splitLine chunk with
    | none => s.take chunk
    | some (part, rest) =>
      readChunk identity epoch fuel (offset + part.length) rest
        (s.line x identity epoch part (offset + part.length))

/-- The chunks from `offset` on. -/
def readChunks (identity epoch : JsString) : Nat → Nat → Bytes → Scan ρ → Scan ρ
  | 0, _, _, s => s
  | fuel + 1, offset, bytes, s =>
    if bytes.isEmpty then s
    else
      let chunk := bytes.take chunkBytes
      readChunks identity epoch fuel (offset + chunk.length) (bytes.drop chunkBytes)
        (readChunk x identity epoch (chunk.length + 1) offset chunk s)

/-! ## The end of the file -/

/-- `acceptFinalRecord` -/
inductive AcceptFinalRecord where
  | never
  | always
  | valid

def acceptsFinal (accept : AcceptFinalRecord) (pending : RecordBuffer) : Bool :=
  pending.bytes ≠ 0 &&
    match accept with
    | .never => false
    | .always => true
    | .valid => ((pending.text x).bind (normalizedLine x)).isSome

/-- A last record without a line feed. -/
def Scan.finish (identity epoch : JsString) (accept : AcceptFinalRecord) (limit : Nat) (s : Scan ρ) : Scan ρ × Bool :=
  if acceptsFinal x accept s.pending then
    let s := { s with hash := s.lineHash, confirmed := limit }
    ({ s.consume x identity epoch (s.pending.text x) false with pending := .empty }, false)
  else (s, true)

/-! ## A read -/

structure HistoryFile where
  /-- Device and inode. -/
  identity : JsString
  present : identity ≠ js "missing"
  bytes : Bytes
  /-- The times of modification and change. -/
  times : JsString

inductive ExpectedStamp where
  | empty
  | missing
  /-- A device and an inode, a size, and the rest of the text. -/
  | of (identity : JsString) (size : Nat) (times : JsString)
  /-- Any other text. -/
  | unreadable

structure TailResult (ρ : Type) where
  cursor : MessageHistoryCursor
  rows : List (MessageHistoryTailRow ρ)
  reset : Bool
  bytesParsed : Nat
  snapshot : PrefixSnapshot

/-- The bytes that the stamp says, or all of them; `none` is `MESSAGE_HISTORY_INDEX_LAGGING`. -/
def readLimit (f : HistoryFile) : Option ExpectedStamp → Option Nat
  | none => some f.bytes.length
  | some (.of identity size times) =>
    if f.bytes.length < size then none
    else if identity ≠ f.identity then none
    else if times ≠ f.times && f.bytes.length == size then none
    else some size
  | some _ => none

/-- The cursor may be continued, if the bytes before it are the same. -/
def mayAppend (f : HistoryFile) (limit : Nat) (previous : MessageHistoryCursor) : Bool :=
  decide (previous.format = messageHistoryTailFormat ∧ previous.identity = f.identity ∧ previous.offset ≤ limit ∧
    previous.atLineBoundary = true)

/-- The hash of a prefix that was verified at this cursor. -/
def cachedHash (entry : Option PrefixEntry) (previous : MessageHistoryCursor) : Option Bytes :=
  ((entry.bind (·.verified)).filter fun cached ↦ decide (cached.cursor.identity = previous.identity ∧
    cached.cursor.epoch = previous.epoch ∧ cached.cursor.offset = previous.offset ∧
    cached.cursor.records = previous.records ∧ cached.cursor.prefixHash = previous.prefixHash)).map (·.hash)

/-- A prefix to be continued: its hash, and the cursor at its end. -/
def appendsTo (f : HistoryFile) (limit : Nat) (cached : Option Bytes) (previous : Option MessageHistoryCursor) :
    Option (Bytes × MessageHistoryCursor) :=
  previous.bind fun previous ↦
    if mayAppend f limit previous then
      let hash := cached.getD (f.bytes.take previous.offset)
      if x.sha256 hash = previous.prefixHash then some (hash, previous) else none
    else none

def Scan.resume (start : Option (Bytes × MessageHistoryCursor)) : Scan ρ :=
  match start with
  | none => ⟨[], [], 0, 0, .empty, .zero, [], []⟩
  | some (hash, previous) =>
    ⟨hash, hash, previous.offset, previous.records, .empty, previous.issues, previous.issueSamples, []⟩

/-- One pass over the file: its result, and the hash at its cursor. -/
def readPass (f : HistoryFile) (limit : Nat) (accept : AcceptFinalRecord) (epoch : JsString)
    (start : Option (Bytes × MessageHistoryCursor)) : TailResult ρ × Bytes :=
  let offset := (start.map (·.2.offset)).getD 0
  let epoch := (start.map (·.2.epoch)).getD epoch
  let tail := (f.bytes.take limit).drop offset
  let s := readChunks x f.identity epoch (tail.length + 1) offset tail (Scan.resume start)
  let finished := s.finish x f.identity epoch accept limit
  ({ cursor :=
       { finished.1.cursor x f.identity epoch finished.2 with pendingBytes := some finished.1.pending.bytes }
     rows := finished.1.rows
     reset := start.isNone
     bytesParsed := limit - offset
     snapshot := ⟨limit, f.identity, x.sha256 finished.1.lineHash⟩ }, finished.1.hash)

/-! ## Verification -/

def settlePrefixValidation (entry : Option PrefixEntry) (snapshot : PrefixSnapshot) (valid : Bool) :
    Option PrefixEntry :=
  if valid then
    entry.map fun entry ↦
      match entry.pending with
      | some pending => if pending.snapshot = snapshot then ⟨some pending, none⟩ else entry
      | none => entry
  else none

def verifyMessageHistoryPrefix (file : Option HistoryFile) (snapshot : PrefixSnapshot) (entry : Option PrefixEntry) :
    Bool × Option PrefixEntry :=
  match file with
  | none => (decide (snapshot.identity = js "missing"), none)
  | some f =>
    let valid := decide (f.identity = snapshot.identity ∧ snapshot.bytes ≤ f.bytes.length ∧
      x.sha256 (f.bytes.take snapshot.bytes) = snapshot.hash)
    (valid, settlePrefixValidation entry snapshot valid)

def rememberPrefixProposal (entry : Option PrefixEntry) (state : PrefixState) : Option PrefixEntry :=
  some ⟨entry.bind (·.verified), some state⟩

/-! ## `readMessageHistoryTail` -/

structure Request where
  previous : Option MessageHistoryCursor
  expectedStamp : Option ExpectedStamp
  acceptFinalRecord : AcceptFinalRecord
  reusePrefixState : Bool
  /-- The random epoch, where a new one is needed. -/
  epoch : JsString

def missingResult (epoch : JsString) : TailResult ρ :=
  let hash := x.sha256 []
  { cursor := ⟨0, 0, hash, js "missing", epoch, true, messageHistoryTailFormat, .zero, [], none⟩
    rows := []
    reset := true
    bytesParsed := 0
    snapshot := ⟨0, js "missing", hash⟩ }

def proposalOf (result : TailResult ρ) (hash : Bytes) : PrefixState := ⟨result.cursor, result.snapshot, hash⟩

/-- A pass that does not reuse a hash, or that continues one which was reused. -/
def readAndRemember (f : HistoryFile) (limit : Nat) (r : Request) (cached : Option Bytes) (reuse : Bool)
    (entry : Option PrefixEntry) : TailResult ρ × Option PrefixEntry :=
  let pass := readPass x f limit r.acceptFinalRecord r.epoch (appendsTo x f limit cached r.previous)
  (pass.1, if reuse then rememberPrefixProposal entry (proposalOf pass.1 pass.2) else entry)

/-- A malformed line more than at the cursor, in a pass that reused its hash. -/
def suspicious (previous : Option MessageHistoryCursor) (result : TailResult ρ) : Bool :=
  previous.any fun previous ↦ decide (previous.issues.malformed < result.cursor.issues.malformed)

/-- `none` is `MESSAGE_HISTORY_INDEX_LAGGING`. -/
def readMessageHistoryTail (file : Option HistoryFile) (r : Request) (entry : Option PrefixEntry) :
    Option (TailResult ρ) × Option PrefixEntry :=
  match file with
  | none =>
    match r.expectedStamp with
    | none | some .empty | some .missing => (some (missingResult x r.epoch), none)
    | some _ => (none, none)
  | some f =>
    match readLimit f r.expectedStamp with
    | none => (none, entry)
    | some limit =>
      let cached := ((r.previous.filter fun previous ↦ r.reusePrefixState && mayAppend f limit previous).bind
        (cachedHash entry))
      let pass := readPass x f limit r.acceptFinalRecord r.epoch (appendsTo x f limit cached r.previous)
      if cached.isSome && suspicious r.previous pass.1 then
        let verification := verifyMessageHistoryPrefix x file pass.1.snapshot entry
        if verification.1 then
          let read := readAndRemember x f limit r cached r.reusePrefixState verification.2
          (some read.1, read.2)
        else
          let read := readAndRemember x f limit r none false none
          (some read.1, read.2)
      else
        let read := readAndRemember x f limit r cached r.reusePrefixState entry
        (some read.1, read.2)

end RabiRoute.MessageHistory
