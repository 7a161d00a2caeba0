import RabiRoute.Collections.InsertionMap
import RabiRoute.Shared.JsString
import RabiRoute.Transitions.System

/-!
# The archive of plugin outcomes

`AsyncPluginOutcomeArchive` as a state machine.  An event is a call, or one step of what the calls await:
a file operation is done in one event and its caller goes on in another, so anything may happen between.
`reserve`, its release and `joinScope` touch nothing that an outcome is read from.
-/

namespace RabiRoute.PluginRuntimeHost

open Collections

/-! ## Receipts -/

inductive Scalar where
  | text (value : JsString)
  | number (value : Int)
  | boolean (value : Bool)
deriving DecidableEq

/-- The scalar properties of an object; none of what is no object. -/
abbrev Fields := List (JsString × Scalar)

structure Receipt where
  fields : Fields := []
  nativeOutcome : Fields := []
  error : Fields := []
deriving DecidableEq

def scalarFields (value : Fields) (fields : List JsString) : Fields :=
  fields.filterMap fun field ↦ (value.lookup field).map fun scalar ↦ (field, scalar)

def nativeFields : List JsString :=
  ["status", "code", "field", "operationId", "receiptId", "deliveryId", "mutationOutcome", "uncertain"].map js

def receiptFields : List JsString :=
  ["requestId", "sequence", "capability", "method", "status", "startedAt", "completedAt", "dispatchStarted", "settled",
    "executionOutcome", "effectOutcome", "responseDelivery", "retryAllowed", "uncertaintyObserved", "methodEffect"].map js

def errorFields : List JsString := nativeFields ++ ["effectOutcome", "dispatchStarted", "retryAllowed"].map js

def metadata (receipt : Receipt) : Receipt where
  fields := scalarFields receipt.fields receiptFields
  nativeOutcome := scalarFields receipt.nativeOutcome nativeFields
  error := scalarFields receipt.error errorFields

/-- What the JSON text of `semantic` holds. -/
structure Semantic where
  status : Option Scalar
  dispatchStarted : Option Scalar
  settled : Option Scalar
  executionOutcome : Option Scalar
  effectOutcome : Option Scalar
  responseUnavailable : Bool
  nativeOutcome : Fields
  error : Fields
deriving DecidableEq

def semantic (receipt : Receipt) : Semantic where
  status := receipt.fields.lookup (js "status")
  dispatchStarted := receipt.fields.lookup (js "dispatchStarted")
  settled := receipt.fields.lookup (js "settled")
  executionOutcome := receipt.fields.lookup (js "executionOutcome")
  effectOutcome := receipt.fields.lookup (js "effectOutcome")
  responseUnavailable := decide (receipt.fields.lookup (js "responseDelivery") = some (.text (js "unavailable")))
  nativeOutcome := receipt.nativeOutcome
  error := receipt.error

def Receipt.uncertaintyObserved (receipt : Receipt) : Bool :=
  decide (receipt.fields.lookup (js "uncertaintyObserved") = some (.boolean true))

/-! ## Records -/

structure PluginIdentity where
  applicationGenerationId : JsString
  managerInstanceId : JsString
  activationId : JsString
  instanceId : JsString
  pluginId : JsString
  version : JsString
  revision : JsString
  host : JsString
deriving DecidableEq

/-- What `outcomeKey` hashes. -/
structure OutcomeKey where
  identity : PluginIdentity
  requestId : JsString
deriving DecidableEq

structure ArchivedOutcome where
  identity : PluginIdentity
  requestId : JsString
  firstFailure : Fields
  firstObservation : Receipt
  current : Receipt
  /-- Which observation of its key `current` is, 0 for one of an earlier archive.  It is not in the file. -/
  stamp : Nat := 0
deriving DecidableEq

def ArchivedOutcome.key (record : ArchivedOutcome) : OutcomeKey := ⟨record.identity, record.requestId⟩

/-- What is written of a record. -/
def ArchivedOutcome.text (record : ArchivedOutcome) : ArchivedOutcome := { record with stamp := 0 }

inductive File where
  | absent
  | unreadable
  | stored (record : ArchivedOutcome)
deriving DecidableEq

/-! ## The write of an entry -/

structure FileOwner where
  version : Nat
  record : ArchivedOutcome
  closeObserved : Bool := false
  payloadReady : Bool := false
  renamed : Bool := false

/-- What the write of an entry awaits.  `landed` says whether the rename has been done. -/
inductive Phase where
  | started
  | firsts
  | directory
  | openFile
  | writeFile
  | sync
  | close
  | actualClose
  | unlink
  | rename (landed : Bool)
  | readback

/-- `loading` is a read of the cold file that is under way, with what it found once it has. -/
structure Entry where
  key : OutcomeKey
  record : ArchivedOutcome
  semantic : Semantic
  version : Nat
  writtenVersion : Nat
  loaded : Bool
  loading : Option (Option File) := none
  fileOwner : Option FileOwner := none
  confirmed : Bool := false
  work : Option Phase := none

namespace Entry

/-- `#write` -/
def write (entry : Entry) : Entry :=
  match entry.work with
  | none => { entry with work := some .started }
  | some _ => entry

/-- `#loadFirst` -/
def loadFirst (entry : Entry) : Entry :=
  if entry.loaded || entry.loading.isSome then entry else { entry with loading := some none }

def fail (entry : Entry) : Entry := { entry with work := none }

def closeFile (entry : Entry) (owner : FileOwner) : Entry :=
  { entry with fileOwner := some owner, work := some (if owner.closeObserved then .actualClose else .close) }

/-- The head of the loop; past it the entry is confirmed. -/
def proceed (entry : Entry) : Entry :=
  if entry.writtenVersion < entry.version then
    match entry.fileOwner with
    | none => { entry with work := some .directory }
    | some owner => entry.closeFile owner
  else { entry with work := none, confirmed := true }

/-- After the file is closed. -/
def publish (entry : Entry) (owner : FileOwner) : Entry :=
  let phase : Phase := if !owner.payloadReady then .unlink else if !owner.renamed then .rename false else .readback
  { entry with work := some phase }

/-- The readback is the record that was written. -/
def isReadback (entry : Entry) (owner : FileOwner) : File → Bool
  | .stored readback => decide (readback.key = entry.key) && decide (readback.text = owner.record.text)
  | _ => false

/-- What the write awaits has succeeded or failed; `none` where it has not ended yet. -/
def resume (entry : Entry) (file : File) (ok : Bool) : Option Entry :=
  match entry.work with
  | none => none
  | some .started => some { entry.loadFirst with work := some .firsts }
  | some .firsts => if !ok then some entry.fail else if entry.loaded then some entry.proceed else none
  | some .directory => some (if ok then { entry with work := some .openFile } else entry.fail)
  | some .openFile =>
    let owner : FileOwner := { version := entry.version, record := entry.record }
    some (if ok then { entry with fileOwner := some owner, work := some .writeFile } else entry.fail)
  | some .writeFile => entry.fileOwner.map fun owner ↦
    if ok then { entry with work := some .sync } else entry.closeFile owner
  | some .sync => entry.fileOwner.map fun owner ↦ entry.closeFile { owner with payloadReady := ok }
  | some .close => some (if ok then { entry with work := some .actualClose } else entry.fail)
  | some .actualClose => entry.fileOwner.bind fun owner ↦
    if owner.closeObserved then some (entry.publish owner) else none
  | some .unlink => some (if ok then { entry.fail with fileOwner := none } else entry.fail)
  | some (.rename landed) => entry.fileOwner.bind fun owner ↦
    if !ok then some entry.fail
    else if landed then some { entry with fileOwner := some { owner with renamed := true }, work := some .readback }
    else none
  | some .readback => entry.fileOwner.map fun owner ↦
    if ok && entry.isReadback owner file then
      { entry with writtenVersion := owner.version, fileOwner := none }.proceed
    else entry.fail

/-- The rename is done. -/
def land (entry : Entry) : Option (Entry × ArchivedOutcome) :=
  match entry.work with
  | some (.rename _) => entry.fileOwner.map fun owner ↦ ({ entry with work := some (.rename true) }, owner.record)
  | _ => none

/-- The file was closed. -/
def observeClose (entry : Entry) : Option Entry :=
  entry.fileOwner.map fun owner ↦ { entry with fileOwner := some { owner with closeObserved := true } }

/-- The cold file is read. -/
def sampleFirst (entry : Entry) (file : File) : Option Entry :=
  match entry.loading with
  | some none => some { entry with loading := some (some file) }
  | _ => none

/-- `#loadFirst` goes on with what it read, or fails. -/
def resumeFirst (entry : Entry) (ok : Bool) : Option Entry :=
  entry.loading.bind fun sampled ↦
    if !ok then some { entry with loading := none }
    else sampled.map fun
      | .absent => { entry with loaded := true, loading := none }
      | .unreadable => { entry with loading := none }
      | .stored previous =>
        if previous.key ≠ entry.key ∨ previous.identity ≠ entry.record.identity then { entry with loading := none }
        else { entry with
          record := { entry.record with
            firstFailure := previous.firstFailure, firstObservation := previous.firstObservation }
          loaded := true
          loading := none }

/-- A later observation of a pending entry. -/
def observe (entry : Entry) (current : Receipt) (stamp : Nat) : Entry :=
  if entry.semantic = PluginRuntimeHost.semantic current then entry
  else { entry with
    record := { entry.record with current := current, stamp := stamp }
    semantic := PluginRuntimeHost.semantic current
    version := entry.version + 1 }

end Entry

def newEntry (key : OutcomeKey) (confirmed : Option ArchivedOutcome) (firstFailure : Fields) (current : Receipt)
    (stamp : Nat) : Entry where
  key := key
  record :=
    { identity := key.identity
      requestId := key.requestId
      firstFailure := (confirmed.map (·.firstFailure)).getD (scalarFields firstFailure nativeFields)
      firstObservation := (confirmed.map (·.firstObservation)).getD current
      current := current
      stamp := stamp }
  semantic := semantic current
  version := 1
  writtenVersion := 0
  loaded := confirmed.isSome

/-! ## The archive -/

abbrev EntryId := Nat

abbrev ReadId := Nat

inductive ReadOutcome where
  | absent
  | failed
  | found (confirmed : Bool) (record : ArchivedOutcome)
deriving DecidableEq

/-- A call of `read`: it awaits the first facts of a pending entry, or what the cold file holds. -/
inductive ReadCall where
  | idle
  | joining (key : OutcomeKey) (e : EntryId)
  | cold (key : OutcomeKey) (sampled : Option File)
  | ended (key : OutcomeKey) (outcome : ReadOutcome)
deriving DecidableEq

/-- The observations of a key, and the entry by which the promise of each is resolved; `none` is one resolved at
once. -/
structure History where
  count : Nat := 0
  observed : Nat → Receipt := fun _ ↦ {}
  promise : Nat → Option EntryId := fun _ ↦ none

def History.add (history : History) (current : Receipt) (e : Option EntryId) : History where
  count := history.count + 1
  observed i := if i = history.count + 1 then current else history.observed i
  promise i := if i = history.count + 1 then e else history.promise i

structure Archive where
  files : OutcomeKey → File
  hot : InsertionMap OutcomeKey ArchivedOutcome := .empty
  pending : OutcomeKey → Option EntryId := fun _ ↦ none
  entries : EntryId → Option Entry := fun _ ↦ none
  next : EntryId := 0
  reads : ReadId → ReadCall := fun _ ↦ .idle
  history : OutcomeKey → History := fun _ ↦ {}

/-- The oldest go while there are more than the limit. -/
def evict (hotLimit : Nat) (hot : InsertionMap OutcomeKey ArchivedOutcome) : InsertionMap OutcomeKey ArchivedOutcome :=
  ⟨hot.entries.drop (hot.entries.length - hotLimit), hot.nodup.sublist ((List.drop_sublist _ _).map _)⟩

namespace Archive

variable (hotLimit : Nat)

/-- An entry that got confirmed leaves `#pending` for `#hot`. -/
def put (a : Archive) (e : EntryId) (entry : Entry) : Archive :=
  let a := { a with entries := Function.update a.entries e (some entry) }
  if entry.confirmed then
    { a with
      hot := evict hotLimit ((a.hot.erase entry.key).set entry.key entry.record)
      pending := Function.update a.pending entry.key none }
  else a

def openEntry (a : Archive) (key : OutcomeKey) (confirmed : Option ArchivedOutcome) (firstFailure : Fields)
    (current : Receipt) : Archive :=
  { a with
    entries := Function.update a.entries a.next
      (some (newEntry key confirmed firstFailure current ((a.history key).count + 1)).write)
    pending := Function.update a.pending key (some a.next)
    next := a.next + 1
    history := Function.update a.history key ((a.history key).add current (some a.next)) }

def observe (a : Archive) (key : OutcomeKey) (firstFailure : Fields) (receipt : Receipt) : Archive :=
  if receipt.uncertaintyObserved then
    let current := metadata receipt
    match a.pending key with
    | some e =>
      { a with
        entries := Function.update a.entries e
          ((a.entries e).map fun entry ↦ (entry.observe current ((a.history key).count + 1)).write)
        history := Function.update a.history key ((a.history key).add current (some e)) }
    | none =>
      match a.hot.get? key with
      | some confirmed =>
        if semantic confirmed.current = semantic current then
          { a with history := Function.update a.history key ((a.history key).add current none) }
        else a.openEntry key (some confirmed) firstFailure current
      | none => a.openEntry key none firstFailure current
  else a

/-- `flushScope` of an identity, and `dispose` without one. -/
def flush (a : Archive) (identity : Option PluginIdentity) : Archive :=
  { a with entries := fun e ↦ (a.entries e).map fun entry ↦
      if a.pending entry.key = some e ∧ identity.all (fun identity ↦ decide (identity = entry.record.identity)) then
        entry.write
      else entry }

def setRead (a : Archive) (r : ReadId) (call : ReadCall) : Archive :=
  { a with reads := Function.update a.reads r call }

/-- The start of `read`. -/
def read (a : Archive) (r : ReadId) (key : OutcomeKey) : Archive :=
  match a.pending key with
  | some e =>
    { a.setRead r (.joining key e) with
      entries := Function.update a.entries e ((a.entries e).map Entry.loadFirst) }
  | none =>
    match a.hot.get? key with
    | some hot => { a.setRead r (.ended key (.found true hot)) with hot := (a.hot.erase key).set key hot }
    | none => a.setRead r (.cold key none)

/-- `read` goes on with what it awaited, or fails. -/
def resumeRead (a : Archive) (r : ReadId) (ok : Bool) : Option Archive :=
  match a.reads r with
  | .joining key e =>
    if !ok then some (a.setRead r (.ended key .failed))
    else (a.entries e).bind fun entry ↦
      if entry.loaded then some (a.setRead r (.ended key (.found (a.pending key).isNone entry.record))) else none
  | .cold key sampled =>
    if !ok then some (a.setRead r (.ended key .failed))
    else sampled.map fun
      | .absent => a.setRead r (.ended key .absent)
      | .unreadable => a.setRead r (.ended key .failed)
      | .stored record =>
        if record.identity ≠ key.identity ∨ record.requestId ≠ key.requestId ∨ record.key ≠ key then
          a.setRead r (.ended key .failed)
        else
          { a.setRead r (.ended key (.found true record)) with hot := evict hotLimit (a.hot.set key record) }
  | _ => none

end Archive

inductive Event where
  | observe (key : OutcomeKey) (firstFailure : Fields) (receipt : Receipt)
  | flush (identity : Option PluginIdentity)
  | resume (e : EntryId) (ok : Bool)
  | land (e : EntryId)
  | observeClose (e : EntryId)
  | sampleFirst (e : EntryId)
  | resumeFirst (e : EntryId) (ok : Bool)
  | read (r : ReadId) (key : OutcomeKey)
  | sampleRead (r : ReadId)
  | resumeRead (r : ReadId) (ok : Bool)

namespace Archive

variable (hotLimit : Nat)

/-- One step of an entry with the file of its key. -/
def stepEntry (a : Archive) (e : EntryId) (step : Entry → File → Option Entry) : Option Archive :=
  (a.entries e).bind fun entry ↦ (step entry (a.files entry.key)).map (a.put hotLimit e)

def landEntry (a : Archive) (e : EntryId) : Option Archive :=
  (a.entries e).bind fun entry ↦ entry.land.map fun landed ↦
    { a.put hotLimit e landed.1 with files := Function.update a.files entry.key (.stored landed.2) }

def sampleRead (a : Archive) (r : ReadId) : Option Archive :=
  match a.reads r with
  | .cold key none => some (a.setRead r (.cold key (some (a.files key))))
  | _ => none

def step : Event → Archive → Option Archive
  | .observe key firstFailure receipt, a => some (a.observe key firstFailure receipt)
  | .flush identity, a => some (a.flush identity)
  | .resume e ok, a => a.stepEntry hotLimit e (·.resume · ok)
  | .land e, a => a.landEntry hotLimit e
  | .observeClose e, a => a.stepEntry hotLimit e fun entry _ ↦ entry.observeClose
  | .sampleFirst e, a => a.stepEntry hotLimit e Entry.sampleFirst
  | .resumeFirst e ok, a => a.stepEntry hotLimit e fun entry _ ↦ entry.resumeFirst ok
  | .read r key, a => if a.reads r = .idle then some (a.read r key) else none
  | .sampleRead r, a => a.sampleRead r
  | .resumeRead r ok, a => a.resumeRead hotLimit r ok

end Archive

def system (hotLimit : Nat) : Transitions.System Archive Event Unit where
  step event a := (a.step hotLimit event).map fun a ↦ ((), a)

/-- An archive over the files that an earlier one left. -/
def initial (files : OutcomeKey → File) : Archive where
  files key :=
    match files key with
    | .stored record => .stored record.text
    | file => file

end RabiRoute.PluginRuntimeHost
