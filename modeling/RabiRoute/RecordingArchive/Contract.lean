import RabiRoute.JsonText.Data

/-!
# The contract of the recording archive

`recordingArchiveContract.ts`: what a manifest and a receipt are, and how unknown values are checked.  A value that
is accepted is read from the parts that the check names; nothing else of it is kept.
-/

open RabiRoute.JsonText

namespace RabiRoute.RecordingArchive

inductive RecordingSource where
  | phone
  | glasses
  | video

inductive TimeBasis where
  | received
  | media
  | imported

inductive ProcessingPolicy where
  | transcribe
  | agent
  | localOnly
deriving DecidableEq

structure RecordingSegment where
  sequence : Nat
  bytes : Nat
  sha256 : JsString
  startedAt : Nat

structure RecordingObject where
  sha256 : JsString
  bytes : Nat
  offset : Nat

structure RecordingGap where
  startedAt : Nat
  endedAt : Nat
  reason : JsString

/-- The schema version, the format and the seal are fixed. -/
structure RecordingManifest where
  recordId : JsString
  captureId : JsString
  eventId : JsString
  deviceId : JsString
  source : RecordingSource
  startedAt : Nat
  endedAt : Nat
  timeBasis : TimeBasis
  segments : List RecordingSegment
  objects : List RecordingObject
  gaps : List RecordingGap
  processingPolicy : ProcessingPolicy
  totalBytes : Nat

/-- The schema version, the durability and the retention are fixed. -/
structure ArchiveReceipt where
  workerId : JsString
  storageNamespaceId : JsString
  recordId : JsString
  manifestHash : JsString
  totalBytes : Nat
  segmentCount : Nat
  committedAt : Nat

def RecordingSource.text : RecordingSource → JsString
  | .phone => js "phone"
  | .glasses => js "glasses"
  | .video => js "video"

def TimeBasis.text : TimeBasis → JsString
  | .received => js "received"
  | .media => js "media"
  | .imported => js "imported"

def ProcessingPolicy.text : ProcessingPolicy → JsString
  | .transcribe => js "transcribe"
  | .agent => js "agent"
  | .localOnly => js "local_only"

def maxBytes : Nat := 128 * 1024 * 1024
def maxItems : Nat := 4096
def maxTime : Nat := 8640000000000000
def objectMaxBytes : Nat := 1024 * 1024
def maxSafeInteger : Nat := 9007199254740991

/-! ## Texts -/

def isIdentityUnit (u : UInt16) : Bool :=
  (65 ≤ u && u ≤ 90) || (97 ≤ u && u ≤ 122) || (48 ≤ u && u ≤ 57) || u == 95 || u == 45

/-- `^[A-Za-z0-9_-]{1,128}$` -/
def isIdentity (text : JsString) : Bool :=
  decide (1 ≤ text.length) && decide (text.length ≤ 128) && text.all isIdentityUnit

def isHexUnit (u : UInt16) : Bool := (97 ≤ u && u ≤ 102) || (48 ≤ u && u ≤ 57)

/-- `^[a-f0-9]{64}$` -/
def isHash (text : JsString) : Bool := decide (text.length = 64) && text.all isHexUnit

/-- Five groups of hexadecimal digits, not all of them zero. -/
def isNamespace (text : JsString) : Bool :=
  decide ((text.splitOn 45).map List.length = [8, 4, 4, 4, 12]) && (text.splitOn 45).all (·.all isHexUnit) &&
    decide (text ≠ js "00000000-0000-0000-0000-000000000000")

/-! ## Values -/

abbrev Checked := Except JsString

def fail {α : Type} (name : JsString) : Checked α := .error (js "Invalid recording archive " ++ name)

def field (fields : List (JsString × Json)) (name : JsString) : Option Json :=
  (fields.find? fun field ↦ decide (field.1 = name)).map Prod.snd

/-- The own properties of an object are enumerable data of exactly these names. -/
def record (value : Option Json) (keys : List JsString) (name : JsString) : Checked (List (JsString × Json)) :=
  match value with
  | some (.object fields) =>
    if fields.length = keys.length ∧ ∀ field ∈ fields, field.1 ∈ keys then .ok fields else fail name
  | _ => fail name

def integer (value : Option Json) (min max : Nat) (name : JsString) : Checked Nat :=
  match value with
  | some (.number n) =>
    if n = (n.num.toNat : ℚ) ∧ n.num.toNat ≤ maxSafeInteger ∧ min ≤ n.num.toNat ∧ n.num.toNat ≤ max then .ok n.num.toNat
    else fail name
  | _ => fail name

def textOf (check : JsString → Bool) (name : JsString) (value : Option Json) : Checked JsString :=
  match value with
  | some (.string text) => if check text then .ok text else fail name
  | _ => fail name

def identity : Option Json → Checked JsString := textOf isIdentity (js "identity")

def hash : Option Json → Checked JsString := textOf isHash (js "hash")

def uuid : Option Json → Checked JsString := textOf isNamespace (js "namespace")

def choice {α : Type} (text : α → JsString) (values : List α) (value : Option Json) : Checked α :=
  match value with
  | some (.string wanted) => ((values.find? fun a ↦ decide (text a = wanted)).map Except.ok).getD (fail (js "enum"))
  | _ => fail (js "enum")

def list (value : Option Json) (min : Nat) (name : JsString) : Checked (List Json) :=
  match value with
  | some (.array items) => if min ≤ items.length ∧ items.length ≤ maxItems then .ok items else fail name
  | _ => fail name

def bytes (value : Option Json) (max : Nat) : Checked Nat := do
  let n ← integer value 2 max (js "bytes")
  if n % 2 ≠ 0 then fail (js "PCM alignment") else .ok n

def time (value : Option Json) : Checked Nat := integer value 0 maxTime (js "time")

/-- Equal to the number 1. -/
def isOne : Option Json → Bool
  | some (.number n) => decide (n = 1)
  | _ => false

def isText (text : JsString) : Option Json → Bool
  | some (.string value) => decide (value = text)
  | _ => false

def isTrue : Option Json → Bool
  | some (.bool b) => b
  | _ => false

def isNumber (n : Nat) : Option Json → Bool
  | some (.number value) => decide (value = n)
  | _ => false

/-! ## The manifest -/

def segmentKeys : List JsString := [js "sequence", js "bytes", js "sha256", js "startedAt"]
def objectKeys : List JsString := [js "sha256", js "bytes", js "offset"]
def gapKeys : List JsString := [js "startedAt", js "endedAt", js "reason"]
def formatKeys : List JsString := [js "codec", js "sampleRate", js "channels"]

def manifestKeys : List JsString :=
  [js "schemaVersion", js "recordId", js "captureId", js "eventId", js "deviceId", js "source", js "startedAt",
    js "endedAt", js "timeBasis", js "format", js "segments", js "objects", js "gaps", js "processingPolicy",
    js "totalBytes", js "sealed"]

/-- The times and the size of the whole recording. -/
structure Extent where
  startedAt : Nat
  endedAt : Nat
  totalBytes : Nat

/-- With the sequence before, the start before and the bytes so far; answers all bytes. -/
def checkSegments (extent : Extent) : List Json → Int → Nat → Nat → Checked (List RecordingSegment × Nat)
  | [], _, _, segmentBytes => .ok ([], segmentBytes)
  | raw :: rest, sequence, previousStart, segmentBytes => do
      let s ← record (some raw) segmentKeys (js "segment")
      let seq ← integer (field s (js "sequence")) 0 maxSafeInteger (js "sequence")
      let size ← bytes (field s (js "bytes")) maxBytes
      let start ← time (field s (js "startedAt"))
      if (seq : Int) ≤ sequence ∨ start < previousStart ∨ start < extent.startedAt ∨ extent.endedAt ≤ start ∨
          32 * (extent.endedAt - start + 1) < size then fail (js "segment order/time")
      else if extent.totalBytes < segmentBytes + size then fail (js "segment total")
      else do
        let sha256 ← hash (field s (js "sha256"))
        let (segments, total) ← checkSegments extent rest seq start (segmentBytes + size)
        .ok (⟨seq, size, sha256, start⟩ :: segments, total)

def checkObjects (extent : Extent) : List Json → Nat → Checked (List RecordingObject × Nat)
  | [], objectBytes => .ok ([], objectBytes)
  | raw :: rest, objectBytes => do
      let o ← record (some raw) objectKeys (js "object")
      let size ← bytes (field o (js "bytes")) objectMaxBytes
      let offset ← integer (field o (js "offset")) 0 maxBytes (js "offset")
      if offset ≠ objectBytes then fail (js "object offset")
      else if extent.totalBytes < objectBytes + size then fail (js "object total")
      else do
        let sha256 ← hash (field o (js "sha256"))
        let (objects, total) ← checkObjects extent rest (objectBytes + size)
        .ok (⟨sha256, size, offset⟩ :: objects, total)

def checkGaps (extent : Extent) : List Json → Nat → Checked (List RecordingGap)
  | [], _ => .ok []
  | raw :: rest, gapEnd => do
      let g ← record (some raw) gapKeys (js "gap")
      let start ← time (field g (js "startedAt"))
      let stop ← time (field g (js "endedAt"))
      if start < gapEnd ∨ stop ≤ start ∨ extent.endedAt < stop then fail (js "gap time")
      else do
        let reason ← identity (field g (js "reason"))
        let gaps ← checkGaps extent rest stop
        .ok (⟨start, stop, reason⟩ :: gaps)

def checkFormat (value : Option Json) : Checked Unit := do
  let f ← record value formatKeys (js "format")
  if isText (js "pcm_s16le") (field f (js "codec")) && isNumber 16000 (field f (js "sampleRate")) &&
      isNumber 1 (field f (js "channels")) then .ok ()
  else fail (js "format")

def checkExtent (v : List (JsString × Json)) : Checked Extent := do
  let startedAt ← time (field v (js "startedAt"))
  let endedAt ← time (field v (js "endedAt"))
  let totalBytes ← bytes (field v (js "totalBytes")) maxBytes
  if endedAt ≤ startedAt ∨ 32 * (endedAt - startedAt + 1) < totalBytes then fail (js "time range")
  else .ok ⟨startedAt, endedAt, totalBytes⟩

def validateRecordingManifest (value : Json) : Checked RecordingManifest := do
  let v ← record (some value) manifestKeys (js "manifest")
  if !isOne (field v (js "schemaVersion")) || !isTrue (field v (js "sealed")) then fail (js "version/seal")
  else do
    let extent ← checkExtent v
    checkFormat (field v (js "format"))
    let rawSegments ← list (field v (js "segments")) 1 (js "segments")
    let (segments, segmentBytes) ← checkSegments extent rawSegments (-1) extent.startedAt 0
    let rawObjects ← list (field v (js "objects")) 1 (js "objects")
    let (objects, objectBytes) ← checkObjects extent rawObjects 0
    if segmentBytes ≠ extent.totalBytes ∨ objectBytes ≠ extent.totalBytes then fail (js "total bytes")
    else do
      let rawGaps ← list (field v (js "gaps")) 0 (js "gaps")
      let gaps ← checkGaps extent rawGaps extent.startedAt
      let recordId ← identity (field v (js "recordId"))
      let captureId ← identity (field v (js "captureId"))
      let eventId ← identity (field v (js "eventId"))
      let deviceId ← identity (field v (js "deviceId"))
      let source ← choice RecordingSource.text [.phone, .glasses, .video] (field v (js "source"))
      let timeBasis ← choice TimeBasis.text [.received, .media, .imported] (field v (js "timeBasis"))
      let processingPolicy ← choice ProcessingPolicy.text [.transcribe, .agent, .localOnly]
        (field v (js "processingPolicy"))
      .ok ⟨recordId, captureId, eventId, deviceId, source, extent.startedAt, extent.endedAt, timeBasis, segments,
        objects, gaps, processingPolicy, extent.totalBytes⟩

/-! ## As data -/

def RecordingSegment.fields (s : RecordingSegment) : List (JsString × Data) :=
  [(js "sequence", .number s.sequence), (js "bytes", .number s.bytes), (js "sha256", .string s.sha256),
    (js "startedAt", .number s.startedAt)]

def RecordingObject.fields (o : RecordingObject) : List (JsString × Data) :=
  [(js "sha256", .string o.sha256), (js "bytes", .number o.bytes), (js "offset", .number o.offset)]

def RecordingGap.fields (g : RecordingGap) : List (JsString × Data) :=
  [(js "startedAt", .number g.startedAt), (js "endedAt", .number g.endedAt), (js "reason", .string g.reason)]

def formatFields : List (JsString × Data) :=
  [(js "codec", .string (js "pcm_s16le")), (js "sampleRate", .number 16000), (js "channels", .number 1)]

def RecordingSegment.data (s : RecordingSegment) : Data := .record s.fields

def RecordingObject.data (o : RecordingObject) : Data := .record o.fields

def RecordingGap.data (g : RecordingGap) : Data := .record g.fields

/-- The object that `validateRecordingManifest` returns. -/
def RecordingManifest.fields (m : RecordingManifest) : List (JsString × Data) :=
  [(js "schemaVersion", .number 1), (js "recordId", .string m.recordId), (js "captureId", .string m.captureId),
    (js "eventId", .string m.eventId), (js "deviceId", .string m.deviceId), (js "source", .string m.source.text),
    (js "startedAt", .number m.startedAt), (js "endedAt", .number m.endedAt),
    (js "timeBasis", .string m.timeBasis.text), (js "format", .record formatFields),
    (js "segments", .list (m.segments.map RecordingSegment.data)),
    (js "objects", .list (m.objects.map RecordingObject.data)), (js "gaps", .list (m.gaps.map RecordingGap.data)),
    (js "processingPolicy", .string m.processingPolicy.text), (js "totalBytes", .number m.totalBytes),
    (js "sealed", .flag true)]

def RecordingManifest.data (m : RecordingManifest) : Data := .record m.fields

def ArchiveReceipt.fields (r : ArchiveReceipt) : List (JsString × Data) :=
  [(js "schemaVersion", .number 1), (js "workerId", .string r.workerId),
    (js "storageNamespaceId", .string r.storageNamespaceId), (js "recordId", .string r.recordId),
    (js "manifestHash", .string r.manifestHash), (js "totalBytes", .number r.totalBytes),
    (js "segmentCount", .number r.segmentCount), (js "committedAt", .number r.committedAt),
    (js "durability", .string (js "archived")), (js "retention", .string (js "indefinite"))]

def ArchiveReceipt.data (r : ArchiveReceipt) : Data := .record r.fields

/-- SHA-256 in hexadecimal, of the UTF-8 of a text and of bytes. -/
structure Sha256 where
  ofText : JsString → JsString
  ofBytes : List UInt8 → JsString
  isHash_ofText : ∀ text, isHash (ofText text) = true
  isHash_ofBytes : ∀ bytes, isHash (ofBytes bytes) = true

def recordingManifestHash (sha : Sha256) (value : Json) : Checked JsString := do
  let m ← validateRecordingManifest value
  .ok (sha.ofText m.data.canonical)

/-! ## The receipt -/

def receiptKeys : List JsString :=
  [js "schemaVersion", js "workerId", js "storageNamespaceId", js "recordId", js "manifestHash", js "totalBytes",
    js "segmentCount", js "committedAt", js "durability", js "retention"]

structure ArchiveReceiptExpectation where
  workerId : JsString
  storageNamespaceId : JsString
  manifest : RecordingManifest

def validateArchiveReceipt (sha : Sha256) (value : Json) (expected : ArchiveReceiptExpectation) :
    Checked ArchiveReceipt := do
  let m ← validateRecordingManifest expected.manifest.data.json
  let workerId ← identity (some (.string expected.workerId))
  let storageNamespaceId ← uuid (some (.string expected.storageNamespaceId))
  let v ← record (some value) receiptKeys (js "receipt")
  if !isOne (field v (js "schemaVersion")) || !isText (js "archived") (field v (js "durability")) ||
      !isText (js "indefinite") (field v (js "retention")) then fail (js "receipt guarantees")
  else do
    let result : ArchiveReceipt := {
      workerId := ← identity (field v (js "workerId"))
      storageNamespaceId := ← uuid (field v (js "storageNamespaceId"))
      recordId := ← identity (field v (js "recordId"))
      manifestHash := ← hash (field v (js "manifestHash"))
      totalBytes := ← bytes (field v (js "totalBytes")) maxBytes
      segmentCount := ← integer (field v (js "segmentCount")) 1 maxItems (js "segment count")
      committedAt := ← time (field v (js "committedAt")) }
    let manifestHash ← recordingManifestHash sha m.data.json
    if result.workerId ≠ workerId ∨ result.storageNamespaceId ≠ storageNamespaceId ∨ result.recordId ≠ m.recordId ∨
        result.manifestHash ≠ manifestHash ∨ result.totalBytes ≠ m.totalBytes ∨
        result.segmentCount ≠ m.segments.length then fail (js "receipt identity")
    else .ok result

end RabiRoute.RecordingArchive
