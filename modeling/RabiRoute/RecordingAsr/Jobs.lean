import RabiRoute.Interleave.Program
import RabiRoute.RecordingArchive.Contract

/-!
# Jobs of speech recognition

`recordingAsrJobs.ts`.  The functions of `RecordingAsrJobs` are programs over what they call: the store, the
two computations, and the fields of their object.
-/

namespace RabiRoute.RecordingAsr

open Interleave RecordingArchive JsonText

abbrev JobKey := JsString

structure RecordingAsrRef where
  owner : JsString
  manifest : RecordingManifest
  receipt : ArchiveReceipt
  processingVersion : JsString

inductive RecordingAsrState where
  | queued
  | blocked
  | running
  | completed
  | failed
  | ambiguous
deriving DecidableEq

/-- The selection source is fixed. -/
structure EffectiveAsrSelection where
  provider : JsString
  model : JsString
  language : Option JsString
  prompt : Option JsString
  configFingerprint : JsString

/-- The reason of a selection that is blocked; its code is fixed. -/
inductive BlockedReason where
  | invalidConfig
  | invalidCatalog
  | ambiguousModel
  | modelUnavailable
  | configurationChanged
  | readFailed

abbrev AsrSelectionResult := Except BlockedReason EffectiveAsrSelection

/-- What `create` is given of a job; the revision is the number that the source writes as a text. -/
structure RecordingAsrJob where
  jobKey : JobKey
  ref : RecordingAsrRef
  revision : Nat
  state : RecordingAsrState
  selection : Option EffectiveAsrSelection := none
  attempt : Nat
  updatedAt : Nat
  error : Option JsString := none

structure RecordingAsrLease where
  jobKey : JobKey
  fence : JsString
deriving DecidableEq

structure RecordingAsrResult where
  text : JsString
  segments : Option (List Json)

/-- An answer of the computation, which is checked. -/
inductive Transcription where
  | result (result : RecordingAsrResult)
  | invalid

inductive Failure where
  /-- `RecordingAsrSafeFailure` -/
  | safe
  | other (message : JsString)
deriving DecidableEq

structure JobPatch where
  state : Option RecordingAsrState := none
  selection : Option EffectiveAsrSelection := none
  updatedAt : Nat
  error : Option JsString := none

/-- The states that `finish` is called with. -/
inductive FinishState where
  | failed
  | ambiguous

structure RecoverablePage where
  jobs : List RecordingAsrJob
  nextCursor : Option JsString

/-- What the functions of the object call: `RecordingAsrDependencies`, and the fields of the object. -/
structure Dependencies (C : Type) (R : C → Type) where
  create : RecordingAsrJob → Program C R Failure RecordingAsrJob
  get : JobKey → Program C R Failure (Option RecordingAsrJob)
  update : JobKey → Nat → JobPatch → Program C R Failure (Option RecordingAsrJob)
  claim : JobKey → Nat → Nat → Program C R Failure (Option RecordingAsrLease)
  finish : RecordingAsrLease → FinishState → JsString → Nat → Program C R Failure Bool
  commitResult : RecordingAsrLease → RecordingAsrResult → Nat → Program C R Failure Bool
  recoverable : Option JsString → Program C R Failure RecoverablePage
  recoverAmbiguous : JobKey → Nat → Nat → Program C R Failure Bool
  resolveSelection : Program C R Failure AsrSelectionResult
  transcribeLocal : RecordingAsrRef → EffectiveAsrSelection → JobKey → Program C R Failure Transcription
  clock : Program C R Failure Nat
  changed : JobKey → Program C R Failure Unit
  isStopped : Program C R Failure Bool
  schedule : JobKey → Program C R Failure Unit
  setActive : RecordingAsrLease → Program C R Failure Unit
  /-- `abort.signal.aborted` of the job that runs -/
  isAborted : Program C R Failure Bool
  clearActive : RecordingAsrLease → Program C R Failure Unit
  /-- Stop, forget what is pending and abort the job that runs; the answer is its lease. -/
  stop : Program C R Failure (Option RecordingAsrLease)

/-! ## References -/

def recordingAsrJobKey (sha : Sha256) (ref : RecordingAsrRef) : Checked JobKey := do
  let manifestHash ← recordingManifestHash sha ref.manifest.data.json
  .ok (sha.ofText (Data.list [.string ref.owner, .string ref.manifest.recordId, .string manifestHash,
    .string ref.processingVersion]).write)

/-- A reference as `enqueue` is given it. -/
structure RefInput where
  owner : JsString
  manifest : Json
  receipt : Json
  processingVersion : JsString

/-- A property of a value. -/
def property (name : JsString) : Json → Option Json
  | .object fields => field fields name
  | _ => none

def normalize (sha : Sha256) (ref : RefInput) : Checked RecordingAsrRef := do
  if !isIdentity ref.owner || !isIdentity ref.processingVersion then .error (js "Invalid ASR identity")
  else do
    let manifest ← validateRecordingManifest ref.manifest
    if manifest.deviceId ≠ ref.owner then .error (js "Archive owner mismatch")
    else do
      let workerId ← identity (property (js "workerId") ref.receipt)
      let storageNamespaceId ← uuid (property (js "storageNamespaceId") ref.receipt)
      let receipt ← validateArchiveReceipt sha ref.receipt ⟨workerId, storageNamespaceId, manifest⟩
      .ok ⟨ref.owner, manifest, receipt, ref.processingVersion⟩

def RecordingAsrRef.input (ref : RecordingAsrRef) : RefInput :=
  ⟨ref.owner, ref.manifest.data.json, ref.receipt.data.json, ref.processingVersion⟩

/-! ## Calls -/

section Calls

variable {C : Type} {R : C → Type} (deps : Dependencies C R) (sha : Sha256)

def enqueue (input : RefInput) : Program C R Failure (Option JobKey) :=
  match normalize sha input with
  | .error message => .raise (.other message)
  | .ok ref =>
    if ref.manifest.processingPolicy ≠ .transcribe then return none
    else do
      if ← deps.isStopped then .raise (.other (js "ASR jobs stopped"))
      else match recordingAsrJobKey sha ref with
        | .error message => .raise (.other message)
        | .ok jobKey => do
            -- the store gives the new job its revision
            let now ← deps.clock
            let job ← deps.create ⟨jobKey, ref, 0, .queued, none, 0, now, none⟩
            if job.state = .queued then deps.schedule jobKey
            return some jobKey

def blockedModelConfiguration : JsString := js "blocked_model_configuration"

/-- The part of `run` that freezes the selection; `none` where `run` returns. -/
def freezeSelection (key : JobKey) (job : RecordingAsrJob) :
    Program C R Failure (Option RecordingAsrJob) :=
  if job.selection.isSome then return some job
  else do
    let selected ← deps.resolveSelection.attempt fun _ ↦ return .error .readFailed
    if ← deps.isStopped then return none
    else match selected with
      | .error _ => do
          let now ← deps.clock
          let _ ← deps.update key job.revision
            { state := some .blocked, error := some blockedModelConfiguration, updatedAt := now }
          deps.changed key
          return none
      | .ok selection => do
          let now ← deps.clock
          deps.update key job.revision { selection := some selection, updatedAt := now }

/-- The body of the `try` of `run`. -/
def compute (key : JobKey) (job : RecordingAsrJob) (lease : RecordingAsrLease) : Program C R Failure Unit := do
  if ← deps.isStopped then
    let now ← deps.clock
    let _ ← deps.finish lease .failed (js "stopped_before_dispatch") now
  else match job.selection with
    -- `copy` of no selection throws
    | none => .raise (.other (js "\"undefined\" is not valid JSON"))
    | some selection => do
        let transcription ← deps.transcribeLocal job.ref selection key
        let aborted ← deps.isAborted
        let stopped ← deps.isStopped
        let now ← deps.clock
        if aborted || stopped then
          let _ ← deps.finish lease .ambiguous (js "aborted_after_dispatch") now
        else match transcription with
          | .invalid => do
              let _ ← deps.finish lease .ambiguous (js "invalid_response") now
          | .result result => do
              let _ ← deps.commitResult lease result now

/-- The `catch` of `run`. -/
def computationFailed (lease : RecordingAsrLease) (error : Failure) : Program C R Failure Unit := do
  let aborted ← deps.isAborted
  let now ← deps.clock
  let _ ← deps.finish lease (if error = .safe ∧ aborted = false then .failed else .ambiguous)
    (if error = .safe then js "rejected_before_dispatch" else js "computation_outcome_unknown") now

/-- The part of `run` that claims a job and computes it. -/
def claimAndCompute (key : JobKey) (job : RecordingAsrJob) : Program C R Failure Unit := do
  if ← deps.isStopped then return
  else
    let now ← deps.clock
    match ← deps.claim key job.revision now with
    | none => return
    | some lease => do
        deps.setActive lease
        ((compute deps key job lease).attempt (computationFailed deps lease)).ensure (do
          deps.clearActive lease
          deps.changed key)

def run (key : JobKey) : Program C R Failure Unit := do
  match ← deps.get key with
  | none => return
  | some job =>
    if job.state ≠ .queued ∨ job.ref.manifest.processingPolicy ≠ .transcribe then return
    else match ← freezeSelection deps key job with
      | none => return
      | some job => claimAndCompute deps key job

def retry (key : JobKey) : Program C R Failure Bool := do
  if ← deps.isStopped then return false
  else match ← deps.get key with
    | none => return false
    | some job =>
      if job.state ≠ .failed ∧ job.state ≠ .blocked then return false
      else do
        let now ← deps.clock
        match ← deps.update key job.revision { state := some .queued, error := some [], updatedAt := now } with
        | none => return false
        | some _ => do
            deps.schedule key
            return true

def recompute (key : JobKey) (processingVersion : JsString) : Program C R Failure (Option JobKey) := do
  match ← deps.get key with
  | none => .raise (.other (js "Recompute requires a new processing version"))
  | some job =>
    if job.ref.processingVersion = processingVersion then
      .raise (.other (js "Recompute requires a new processing version"))
    else enqueue deps sha { job.ref.input with processingVersion }

/-- The jobs of one page of `restore`. -/
def restoreJobs : List RecordingAsrJob → Program C R Failure Unit
  | [] => return
  | job :: jobs => do
      if job.state = .running then
        let now ← deps.clock
        if ← deps.recoverAmbiguous job.jobKey job.revision now then deps.changed job.jobKey
      else if job.state = .queued then deps.schedule job.jobKey
      restoreJobs jobs

/-- So many pages of `restore` at most, with the cursors that were seen. -/
def restoreFrom : Nat → List JsString → Option JsString → Program C R Failure Unit
  | 0, _, _ => return
  | pages + 1, seen, cursor => do
      if ← deps.isStopped then return
      else
        let page ← deps.recoverable cursor
        restoreJobs deps page.jobs
        match page.nextCursor with
        | none => return
        | some next =>
          if next = [] then return
          else if next ∈ seen then .raise (.other (js "Repeated ASR recovery cursor"))
          else restoreFrom pages (next :: seen) (some next)

def restore (pages : Nat) : Program C R Failure Unit := restoreFrom deps pages [] none

def shutdown : Program C R Failure Unit := do
  match ← deps.stop with
  | none => return
  | some lease => do
      let now ← deps.clock
      let _ ← deps.finish lease .ambiguous (js "shutdown_after_dispatch") now

end Calls

end RabiRoute.RecordingAsr
