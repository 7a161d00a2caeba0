import RabiRoute.AgentRequests.Party
import RabiRoute.Interleave.Interrupted
import RabiRoute.Transitions.System

/-!
# The receipts of transport attempts

`EndpointTransportReceipts` keeps one file for each delivery: the attempt that was reserved, a proof that
nothing was sent, and at last the receipt.  A call is the program of its file operations, and the process
may be killed between two of them or inside a write.
-/

open Interleave Interleave.Program

namespace RabiRoute.AgentRequests

namespace EndpointTransport

structure NativeOwnerDeliveryEvidence where
  deliveryId : JsString
  generation : JsString
  target : AgentRequestEndpoint
  promptHash : JsString
  executionOptionsHash : JsString
  dispatchAttemptId : Option JsString := none
  executionOptions : Option EndpointExecutionOptions := none

structure EndpointDeliveryReceipt where
  deliveryId : JsString
  generation : JsString
  endpoint : AgentRequestEndpoint
  promptHash : JsString
  executionOptionsHash : JsString
  accepted : Bool
  action : JsString
  transport : JsString

structure NoFrameProof where
  kind : JsString
  attemptId : JsString
  observedAt : JsString

inductive AttemptState where
  | attempting
  | notSent
deriving DecidableEq

structure TransportEvidence where
  deliveryId : JsString
  generation : JsString
  promptHash : JsString
  executionOptionsHash : JsString
  executionOptions : Option EndpointExecutionOptions := none
  target : AgentRequestEndpoint
  receipt : Option EndpointDeliveryReceipt := none
  attemptId : Option JsString := none
  attemptSequence : Option Nat := none
  state : Option AttemptState := none
  dispatchAttemptId : Option JsString := none
  noFrameProof : Option NoFrameProof := none
  lastNoFrameProof : Option NoFrameProof := none

inductive TransportError where
  | identityMismatch
  | receiptMismatch
  | invalidNoFrameEvidence
  | proofMismatch
  | untrustedProof
  | noActiveAttempt
  | notReserved
  /-- `SyntaxError` of `JSON.parse`. -/
  | unparsable
  /-- `ENOENT` and `EEXIST` of a file operation. -/
  | missing
  | occupied
deriving DecidableEq

def TransportError.message : TransportError → String
  | .identityMismatch => "Transport evidence identity mismatch."
  | .receiptMismatch =>
    "Prepared delivery receipt does not match the original endpoint, incarnation, generation and prompt hash."
  | .invalidNoFrameEvidence => "Transport no-frame evidence is invalid; original attempt remains unknown."
  | .proofMismatch => "Transport no-frame proof does not match the exact original delivery and attempt."
  | .untrustedProof => "A trusted no-frame error is required."
  | .noActiveAttempt => "No active transport attempt can accept no-frame evidence."
  | .notReserved => "Transport attempt was not reserved."
  | .unparsable => "Unexpected end of JSON input"
  | .missing => "ENOENT: no such file or directory"
  | .occupied => "EEXIST: file already exists"

def TransportError.code : TransportError → Option String
  | .identityMismatch => some "DELIVERY_INPUT_CONFLICT"
  | .missing => some "ENOENT"
  | .occupied => some "EEXIST"
  | _ => none

/-! ## What the files say -/

def validateEndpointReceipt (delivery : NativeOwnerDeliveryEvidence) (receipt : EndpointDeliveryReceipt) : Bool :=
  receipt.accepted && receipt.deliveryId = delivery.deliveryId && receipt.generation = delivery.generation &&
    receipt.promptHash = delivery.promptHash && receipt.executionOptionsHash = delivery.executionOptionsHash &&
    sameAgentEndpoint receipt.endpoint delivery.target && !receipt.action.isEmpty && !receipt.transport.isEmpty

/-- A text that is given and not empty. -/
def given (text : Option JsString) : Bool := text.any (!·.isEmpty)

/-- A hexadecimal digit, with the `i` flag. -/
def isHexUnit (u : UInt16) : Bool := (48 ≤ u && u ≤ 57) || (97 ≤ u && u ≤ 102) || (65 ≤ u && u ≤ 70)

/-- A UUID of version 4. -/
def isUuid (text : JsString) : Bool :=
  decide ((text.splitOn 45).map List.length = [8, 4, 4, 4, 12]) && (text.splitOn 45).all (·.all isHexUnit) &&
    decide (text[14]? = some 52) && (text[19]?).any (· ∈ [56, 57, 97, 98, 65, 66])

def maxSafeInteger : Nat := 2 ^ 53 - 1

section Evidence

-- `Number.isFinite(Date.parse(text))`
variable (parses : JsString → Bool)

/-- The proof that `noFrameProof` puts together from the evidence, against `validateEndpointDeliveryNoFrameProof`. -/
def validNoFrameProof (delivery : NativeOwnerDeliveryEvidence) (evidence : TransportEvidence) : Bool :=
  evidence.noFrameProof.any fun proof ↦
    proof.kind = js "no-prompt-frame" && given delivery.dispatchAttemptId &&
      evidence.dispatchAttemptId = delivery.dispatchAttemptId && evidence.attemptId.any isUuid &&
      evidence.attemptSequence.any (fun n ↦ 1 ≤ n && n ≤ maxSafeInteger) && parses proof.observedAt

def TransportEvidence.identifies (value : TransportEvidence) (delivery : NativeOwnerDeliveryEvidence) : Bool :=
  value.deliveryId = delivery.deliveryId && value.generation = delivery.generation &&
    value.promptHash = delivery.promptHash && value.executionOptionsHash = delivery.executionOptionsHash &&
    sameAgentEndpoint value.target delivery.target

/-- The state `not_sent` comes with its proof. -/
def TransportEvidence.proves (value : TransportEvidence) : Bool :=
  value.state ≠ some .notSent ||
    given value.attemptId && value.noFrameProof.any fun proof ↦
      proof.kind = js "no-prompt-frame" && some proof.attemptId = value.attemptId && parses proof.observedAt

/-- The checks of `read`. -/
def checkEvidence (delivery : NativeOwnerDeliveryEvidence) (value : TransportEvidence) :
    Except TransportError TransportEvidence :=
  if !value.identifies delivery then .error .identityMismatch
  else if value.receipt.any (!validateEndpointReceipt delivery ·) then .error .receiptMismatch
  else if !value.proves parses then .error .invalidNoFrameEvidence
  else .ok value

end Evidence

/-! ## The directory -/

variable {Name : Type}

/-- The files, by the SHA-256 of the delivery's id. -/
inductive Path (Name : Type) where
  | json (id : Name)
  /-- `${file}.receipt` -/
  | receipt (id : Name)
  /-- A temporary of `atomicWriteFileSync`. -/
  | temporary (uuid : Nat)
deriving DecidableEq

inductive Contents where
  /-- Nothing yet, or a part of the text. -/
  | unfinished
  | evidence (value : TransportEvidence)

structure Directory (Name : Type) where
  made : Bool
  file : Path Name → Option Contents

def Directory.set [DecidableEq Name] (s : Directory Name) (p : Path Name) (contents : Option Contents) :
    Directory Name :=
  { s with file := fun q ↦ if q = p then contents else s.file q }

inductive Cmd (Name : Type) where
  | stat (p : Path Name)
  | readFile (p : Path Name)
  | mkdir
  /-- `openSync` with `wx`. -/
  | openNew (p : Path Name)
  | write (p : Path Name) (value : TransportEvidence)
  | fsync (p : Path Name)
  | close (p : Path Name)
  | rename (source destination : Path Name)
  | exists (p : Path Name)
  | unlink (p : Path Name)

abbrev Cmd.Val : Cmd Name → Type
  | .readFile _ => Contents
  | .exists _ => Bool
  | _ => Unit

abbrev Cmd.Response : Cmd Name → Type := Fallible TransportError Cmd.Val

variable (Name) in
abbrev Prog := Program (Cmd Name) Cmd.Response TransportError

def sys (c : Cmd Name) : Prog Name c.Val := performOrThrow c

section Steps

variable [DecidableEq Name]

def exec : (c : Cmd Name) → Directory Name → c.Response × Directory Name
  | .stat p, s => (if (s.file p).isSome then .ok () else .error .missing, s)
  | .readFile p, s => ((s.file p).elim (.error .missing) .ok, s)
  | .mkdir, s => (.ok (), { s with made := true })
  | .openNew p, s =>
    if !s.made then (.error .missing, s)
    else if (s.file p).isSome then (.error .occupied, s)
    else (.ok (), s.set p (some .unfinished))
  | .write p value, s => (.ok (), s.set p (some (.evidence value)))
  | .fsync _, s => (.ok (), s)
  | .close _, s => (.ok (), s)
  | .rename source destination, s =>
    (s.file source).elim (.error .missing, s) fun contents ↦
      (.ok (), (s.set source none).set destination (some contents))
  | .exists p, s => (.ok (s.file p).isSome, s)
  | .unlink p, s => if (s.file p).isSome then (.ok (), s.set p none) else (.error .missing, s)

/-- A write that is killed leaves a part of the text. -/
def tear : Cmd Name → Unit → Directory Name → Option (Directory Name)
  | .write p _, _, s => some (s.set p (some .unfinished))
  | _, _, _ => none

variable (Name) in
def machine : Killable (Directory Name) (Cmd Name) Cmd.Response Unit := ⟨exec, tear⟩

end Steps

/-! ## The calls -/

/-- What a call draws: the id of an attempt, the name of a temporary, and the time. -/
structure Drawn where
  attemptId : JsString
  temporary : Nat
  now : JsString

/-- Create the temporary, write it, and close it. -/
def writeNew (p : Path Name) (value : TransportEvidence) : Prog Name Unit := do
  sys (.openNew p)
  Program.ensure (do sys (.write p value); sys (.fsync p)) (sys (.close p))

def atomicWriteFileSync (destination : Path Name) (uuid : Nat) (value : TransportEvidence) : Prog Name Unit := do
  (sys (.stat destination)).attempt fun _ ↦ pure ()
  sys .mkdir
  Program.ensure
    (do writeNew (.temporary uuid) value
        sys (.rename (.temporary uuid) destination))
    (do if ← sys (.exists (.temporary uuid)) then sys (.unlink (.temporary uuid)) else pure ())

section Calls

variable (sha256 : JsString → Name) (parses : JsString → Bool) (delivery : NativeOwnerDeliveryEvidence)

def file : Path Name := .json (sha256 delivery.deliveryId)

/-- The text of the file, if there is one. -/
def readText : Prog Name (Option Contents) :=
  (sys (.readFile (file sha256 delivery))).handle (fun contents ↦ pure (some contents)) fun error ↦
    if error = .missing then pure none else raise error

def read : Prog Name (Option TransportEvidence) := do
  match ← readText sha256 delivery with
  | none => pure none
  | some .unfinished => raise .unparsable
  | some (.evidence value) =>
    match checkEvidence parses delivery value with
    | .ok value => pure (some value)
    | .error e => raise e

def readReceipt : Prog Name (Option EndpointDeliveryReceipt) := do
  let evidence ← read sha256 parses delivery
  pure (evidence.bind (·.receipt))

/-- The proof of the last attempt is used up by the next one. -/
def consumed (original : TransportEvidence) (drawn : Drawn) : TransportEvidence :=
  { original with
    noFrameProof := none
    state := some .attempting
    attemptId := some drawn.attemptId
    dispatchAttemptId := delivery.dispatchAttemptId
    attemptSequence := some (original.attemptSequence.getD 1 + 1)
    lastNoFrameProof := original.noFrameProof }

def reserved (drawn : Drawn) : TransportEvidence where
  deliveryId := delivery.deliveryId
  generation := delivery.generation
  promptHash := delivery.promptHash
  executionOptionsHash := delivery.executionOptionsHash
  target := delivery.target
  executionOptions := delivery.executionOptions
  dispatchAttemptId := delivery.dispatchAttemptId
  attemptId := some drawn.attemptId
  attemptSequence := some 1
  state := some .attempting

def consumeNoFrameProof (original : TransportEvidence) (drawn : Drawn) : Prog Name Bool :=
  if original.receipt.isSome || original.state ≠ some .notSent then pure false
  else if !validNoFrameProof parses { delivery with dispatchAttemptId := original.dispatchAttemptId } original then
    raise .proofMismatch
  else if original.dispatchAttemptId = delivery.dispatchAttemptId then pure false
  else do
    atomicWriteFileSync (file sha256 delivery) drawn.temporary (consumed delivery original drawn)
    pure true

def reserveAttempt (drawn : Drawn) : Prog Name Bool := do
  sys .mkdir
  writeNew (file sha256 delivery) (reserved delivery drawn)
  pure true

def beginAttempt (drawn : Drawn) : Prog Name Bool := do
  match ← read sha256 parses delivery with
  | some original => consumeNoFrameProof sha256 parses delivery original drawn
  | none =>
    (reserveAttempt sha256 delivery drawn).attempt fun error ↦ do
      if error = .occupied then
        let _ ← read sha256 parses delivery
        pure false
      else raise error

/-- `trusted`: the proof is an `EndpointDeliveryNotSentError`. -/
def writeNotSent (trusted : Bool) (drawn : Drawn) : Prog Name Unit :=
  if !trusted then raise .untrustedProof
  else do
    match ← read sha256 parses delivery with
    | none => raise .noActiveAttempt
    | some original =>
      if !given original.attemptId || original.receipt.isSome || !given delivery.dispatchAttemptId ||
          original.dispatchAttemptId ≠ delivery.dispatchAttemptId then raise .noActiveAttempt
      else if original.state = some .notSent then pure ()
      else
        atomicWriteFileSync (file sha256 delivery) drawn.temporary
          { original with
            state := some .notSent
            noFrameProof := some ⟨js "no-prompt-frame", original.attemptId.getD [], drawn.now⟩ }

def writeReceipt (receipt : EndpointDeliveryReceipt) : Prog Name Unit :=
  if !validateEndpointReceipt delivery receipt then raise .receiptMismatch
  else do
    match ← read sha256 parses delivery with
    | none => raise .notReserved
    | some original =>
      if original.receipt.isSome then pure ()
      else do
        let temporary : Path Name := .receipt (sha256 delivery.deliveryId)
        writeNew temporary { original with receipt := some receipt }
        sys (.rename temporary (file sha256 delivery))

end Calls

/-! ## Runs -/

inductive Call where
  | beginAttempt (drawn : Drawn)
  | writeNotSent (trusted : Bool) (drawn : Drawn)
  | writeReceipt (receipt : EndpointDeliveryReceipt)

/-- What the call draws, if it draws anything. -/
def Call.drawn : Call → Option Drawn
  | .beginAttempt drawn => some drawn
  | .writeNotSent _ drawn => some drawn
  | .writeReceipt _ => none

def Call.program (sha256 : JsString → Name) (parses : JsString → Bool) (delivery : NativeOwnerDeliveryEvidence) :
    Call → Prog Name (Option Bool)
  | .beginAttempt drawn => do pure (some (← EndpointTransport.beginAttempt sha256 parses delivery drawn))
  | .writeNotSent trusted drawn => do
      EndpointTransport.writeNotSent sha256 parses delivery trusted drawn
      pure none
  | .writeReceipt receipt => do
      EndpointTransport.writeReceipt sha256 parses delivery receipt
      pure none

/-- A call to its end, or one whose process is killed after so many file operations or inside the next one. -/
inductive Run where
  | complete (delivery : NativeOwnerDeliveryEvidence) (call : Call)
  | killed (delivery : NativeOwnerDeliveryEvidence) (call : Call) (operations : Nat) (torn : Option Unit)

def Run.call : Run → Call
  | .complete _ call => call
  | .killed _ call _ _ => call

/-- The calls on one directory, one after the other. -/
def runs [DecidableEq Name] (sha256 : JsString → Name) (parses : JsString → Bool) :
    Transitions.System (Directory Name) Run (Option (Except TransportError (Option Bool))) where
  step run s :=
    -- the text of the clock is a date
    if run.call.drawn.any (!parses ·.now) then none
    else
      match run with
      | .complete delivery call =>
        let (outcome, s) := (call.program sha256 parses delivery).run exec s
        some (some outcome, s)
      | .killed delivery call operations torn =>
        ((machine Name).stop operations torn (call.program sha256 parses delivery) s).map fun s ↦ (none, s)

/-- Before any call. -/
def initial : Directory Name := ⟨false, fun _ ↦ none⟩

end EndpointTransport

end RabiRoute.AgentRequests
