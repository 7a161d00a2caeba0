import RabiRoute.Interleave.Interrupted
import RabiRoute.PluginStorage.Tree
import RabiRoute.Transitions.System

/-!
# The migration of one plugin's storage

`applyPluginStorageMigrations` in `pluginStorage.ts`, for one declared file or directory.  A run is the
program of its file operations; the process may be killed between two of them, and inside a recursive
copy or removal.  Receipts are written by rename, so they are whole or not there.
-/

open Interleave Interleave.Program

namespace RabiRoute.PluginStorage

inductive MigrationKind where
  | file
  | directory

inductive ReceiptStatus where
  | prepared
  | migrated
  | fresh
  | externalReference
deriving DecidableEq

structure Receipt (Digest : Type) where
  schemaVersion : Nat
  source : List Char
  target : List Char
  originalDigest : Option Digest
  targetDigest : Option Digest
  status : ReceiptStatus

/-- A declared migration, with the paths that the layout and the legacy sources give it. -/
structure Migration where
  kind : MigrationKind
  source : List Char
  target : List Char
  /-- The updater named the original source, or the legacy state root. -/
  exactSource : Bool

/-- What differs between two runs. -/
structure RunInput where
  readOnly : Bool
  ambiguousLegacyOwner : Bool
  /-- The environment or the configuration selects a path of its own. -/
  customPath : Bool
  /-- The UUID of the candidate. -/
  uuid : Nat

inductive Place where
  | source
  | target
  | raw
  /-- `${target}.migration-${uuid}`. -/
  | staged (uuid : Nat)

structure Disk (Digest : Type) where
  source : Option Tree
  target : Option Tree
  /-- The backup directory is there. -/
  backup : Bool
  raw : Option Tree
  receipt : Option (Receipt Digest)
  /-- `fresh-source-before-adoption.json`. -/
  adoption : Option (Receipt Digest)
  staged : Nat → Option Tree

variable {Digest : Type}

namespace Disk

def node (s : Disk Digest) : Place → Option Tree
  | .source => s.source
  | .target => s.target
  | .raw => s.raw
  | .staged uuid => s.staged uuid

def set (s : Disk Digest) (p : Place) (tree : Option Tree) : Disk Digest :=
  match p with
  | .source => { s with source := tree }
  | .target => { s with target := tree }
  | .raw => { s with raw := tree }
  | .staged uuid => { s with staged := fun u ↦ if u = uuid then tree else s.staged u }

end Disk

inductive MigrationError where
  | newStorageExists
  | readOnlyAdoption
  | unprovenReceipt
  | sourceChanged
  | targetConflict
  | readOnlyPrepared
  | bothAbsent
  | ambiguousOwner
  | bothExist
  | readOnlyMigration
  | wrongType
  | earlierBackup
  | rawCheck
  | candidateCheck
  | publishedCheck
  | unsupportedType
  /-- `ENOENT` and `EEXIST` of a file operation. -/
  | missing
  | occupied
deriving DecidableEq

def MigrationError.message : MigrationError → String
  | .newStorageExists => "An exact original source was supplied after new storage already exists; preserve and reconcile both claims."
  | .readOnlyAdoption => "Read-only startup preserved the newly identified original storage for writable adoption."
  | .unprovenReceipt =>
    "The original migration recovery receipt or raw backup does not prove this owner; inspect its preserved files."
  | .sourceChanged => "Original storage changed after migration preparation; preserve both claims and resolve the conflict."
  | .targetConflict =>
    "Published storage conflicts with the original prepared migration; neither claim was overwritten."
  | .readOnlyPrepared =>
    "Read-only startup preserved a verified prepared migration; writable startup can finish its original receipt."
  | .bothAbsent =>
    "Both original and published storage are absent; preserve the recovery backup for explicit owner recovery."
  | .ambiguousOwner =>
    "Legacy storage has no unambiguous instance owner; identify its original instance before migrating."
  | .bothExist =>
    "Both legacy and plugin-owned storage exist; inspect the original files and resolve the conflict without overwriting either owner."
  | .readOnlyMigration =>
    "This plugin requires its one-time storage migration; read-only startup preserved the original files."
  | .wrongType => "Legacy plugin storage does not match the declared resource type."
  | .earlierBackup =>
    "An earlier migration recovery directory exists; inspect its original receipt before continuing."
  | .rawCheck => "Private raw migration backup failed its content check."
  | .candidateCheck => "Plugin storage candidate failed its raw content check."
  | .publishedCheck => "Published plugin storage failed its content check."
  | .unsupportedType => "Plugin storage migration encountered an unsupported file type."
  | .missing => "ENOENT: no such file or directory"
  | .occupied => "EEXIST: file already exists"

inductive Cmd (Digest : Type) where
  | exists (p : Place)
  | backupExists
  | receiptExists
  | readReceipt
  | digest (p : Place)
  /-- `lstatSync` of the source, against the declared kind. -/
  | matchesKind (kind : MigrationKind)
  | mkdirBackup
  | mkdirParent
  | copy (src dst : Place)
  | writeReceipt (receipt : Receipt Digest)
  | writeAdoption (receipt : Receipt Digest)
  | publish (uuid : Nat)
  | remove (p : Place)
  /-- `rmSync` of a candidate, with `force`. -/
  | discard (uuid : Nat)

abbrev Cmd.Val : Cmd Digest → Type
  | .exists _ => Bool
  | .backupExists => Bool
  | .receiptExists => Bool
  | .readReceipt => Receipt Digest
  | .digest _ => Digest
  | .matchesKind _ => Bool
  | _ => Unit

abbrev Cmd.Response : Cmd Digest → Type := Fallible MigrationError Cmd.Val

variable (Digest) in
abbrev Prog := Program (Cmd Digest) Cmd.Response MigrationError

def sys (c : Cmd Digest) : Prog Digest c.Val := performOrThrow c

def Tree.matchesKind : Tree → MigrationKind → Bool
  | .file _, .file => true
  | .dir _, .directory => true
  | _, _ => false

section Steps

variable (sha256 : List UInt8 → Digest)

def exec : (c : Cmd Digest) → Disk Digest → c.Response × Disk Digest
  | .exists p, s => (.ok (s.node p).isSome, s)
  | .backupExists, s => (.ok s.backup, s)
  | .receiptExists, s => (.ok s.receipt.isSome, s)
  | .readReceipt, s => (s.receipt.elim (.error .missing) .ok, s)
  | .digest p, s =>
    ((s.node p).elim (.error .missing) fun tree ↦ (digestTree sha256 tree).elim (.error .unsupportedType) .ok, s)
  | .matchesKind kind, s => (s.source.elim (.error .missing) fun tree ↦ .ok (tree.matchesKind kind), s)
  | .mkdirBackup, s => (.ok (), { s with backup := true })
  | .mkdirParent, s => (.ok (), s)
  | .copy src dst, s =>
    if (s.node dst).isSome then (.error .occupied, s)
    else (s.node src).elim (.error .missing, s) fun tree ↦
      if tree.supported then (.ok (), s.set dst (some tree)) else (.error .unsupportedType, s)
  | .writeReceipt receipt, s => if s.backup then (.ok (), { s with receipt := some receipt }) else (.error .missing, s)
  | .writeAdoption receipt, s =>
    if s.backup then (.ok (), { s with adoption := some receipt }) else (.error .missing, s)
  | .publish uuid, s =>
    (s.staged uuid).elim (.error .missing, s) fun tree ↦
      (.ok (), (s.set (.staged uuid) none).set .target (some tree))
  | .remove p, s => if (s.node p).isSome then (.ok (), s.set p none) else (.error .missing, s)
  | .discard uuid, s => (.ok (), s.set (.staged uuid) none)

/-- A recursive copy that is killed leaves part of its tree, and a recursive removal too. -/
def tear : Cmd Digest → Tree → Disk Digest → Option (Disk Digest)
  | .copy src dst, part, s =>
    if (s.node dst).isNone ∧ (s.node src).any (part.copied ·) then some (s.set dst (some part)) else none
  | .remove p, part, s => if (s.node p).any (part.left ·) then some (s.set p (some part)) else none
  | .discard uuid, part, s =>
    if (s.staged uuid).any (part.left ·) then some (s.set (.staged uuid) (some part)) else none
  | _, _, _ => none

def machine : Killable (Disk Digest) (Cmd Digest) Cmd.Response Tree := ⟨exec sha256, tear⟩

end Steps

/-! ## One run -/

inductive MigrationResult where
  /-- With the note that an earlier publication was finished. -/
  | migrated (finished : Bool)
  | unchanged
  | customPath
  | failed (error : MigrationError)
deriving DecidableEq

/-- Where the receipt leaves the run: at its result, or before the migration proper. -/
inductive Opening (Digest : Type) where
  | done (result : MigrationResult)
  | proceed (recoveryDigest : Option Digest) (adoptingFreshSource : Bool)

variable [DecidableEq Digest] (m : Migration) (input : RunInput)

def Receipt.closed (receipt : Receipt Digest) : Bool :=
  decide (receipt.schemaVersion = 1 ∧ receipt.target = m.target ∧ receipt.status ≠ .prepared)

def Receipt.proves (receipt : Receipt Digest) : Bool :=
  decide (receipt.schemaVersion = 1 ∧ receipt.status = .prepared ∧ receipt.source = m.source ∧
    receipt.target = m.target ∧ receipt.originalDigest.isSome ∧ receipt.targetDigest = receipt.originalDigest)

def preparedReceipt (digest : Digest) : Receipt Digest :=
  ⟨1, m.source, m.target, some digest, some digest, .prepared⟩

def freshReceipt : Receipt Digest := ⟨1, m.source, m.target, none, none, .fresh⟩

def retire (sourcePresent : Bool) : Prog Digest Unit := if sourcePresent then sys (.remove .source) else pure ()

/-- The published storage of a prepared migration is there: retire the source. -/
def finishPublished (previous : Receipt Digest) (sourcePresent : Bool) : Prog Digest (Opening Digest) := do
  let digest ← sys (.digest .target)
  if some digest ≠ previous.targetDigest then raise .targetConflict
  else if input.readOnly then raise .readOnlyPrepared
  else
    retire sourcePresent
    sys (.writeReceipt { previous with status := .migrated })
    pure (.done (.migrated true))

def recoverPublication (previous : Receipt Digest) (sourcePresent : Bool) : Prog Digest (Opening Digest) := do
  if ← sys (.exists .target) then finishPublished input previous sourcePresent
  else if !sourcePresent then raise .bothAbsent
  else pure (.proceed previous.originalDigest false)

def recoverPrepared (previous : Receipt Digest) : Prog Digest (Opening Digest) :=
  if !previous.proves m then raise .unprovenReceipt
  else do
    let rawDigest ← sys (.digest .raw)
    if some rawDigest ≠ previous.originalDigest then raise .unprovenReceipt
    else
      let sourcePresent ← sys (.exists .source)
      if sourcePresent then
        let digest ← sys (.digest .source)
        if some digest ≠ previous.originalDigest then raise .sourceChanged
        else recoverPublication input previous true
      else recoverPublication input previous false

def adoptFreshSource (previous : Receipt Digest) : Prog Digest (Opening Digest) := do
  if ← sys (.exists .target) then raise .newStorageExists
  else if input.readOnly then raise .readOnlyAdoption
  else
    sys (.writeAdoption previous)
    pure (.proceed none true)

def openReceipt : Prog Digest (Opening Digest) := do
  if ← sys .receiptExists then
    let previous ← sys .readReceipt
    if previous.closed m then
      if previous.status = .fresh ∧ m.exactSource ∧ previous.source ≠ m.source then adoptFreshSource input previous
      else pure (.done .unchanged)
    else recoverPrepared m input previous
  else pure (.proceed none false)

/-- Copy the backup beside the target, check it, and publish it under the prepared receipt. -/
def publishCandidate (originalDigest : Digest) : Prog Digest Digest := do
  sys (.copy .raw (.staged input.uuid))
  let digest ← sys (.digest (.staged input.uuid))
  if digest ≠ originalDigest then raise .candidateCheck
  else
    let targetDigest ← sys (.digest (.staged input.uuid))
    sys (.writeReceipt ⟨1, m.source, m.target, some originalDigest, some targetDigest, .prepared⟩)
    sys (.publish input.uuid)
    pure targetDigest

/-- The private raw backup; a recovered one is only checked. -/
def backupRaw (recoveryDigest : Option Digest) : Prog Digest Digest :=
  match recoveryDigest with
  | some digest => pure digest
  | none => do
      let digest ← sys (.digest .source)
      sys (.copy .source .raw)
      pure digest

/-- The published storage is checked once more, and the source goes. -/
def retireSource (originalDigest targetDigest : Digest) : Prog Digest MigrationResult := do
  let published ← sys (.digest .target)
  if published ≠ targetDigest then raise .publishedCheck
  else
    sys (.remove .source)
    sys (.writeReceipt ⟨1, m.source, m.target, some originalDigest, some targetDigest, .migrated⟩)
    pure (.migrated false)

/-- A candidate that was not published is removed when the migration fails. -/
def publishBackup (originalDigest : Digest) : Prog Digest MigrationResult := do
  sys .mkdirParent
  let targetDigest ← (publishCandidate m input originalDigest).attempt fun error ↦ do
    sys (.discard input.uuid)
    raise error
  retireSource m originalDigest targetDigest

def publishMigration (recoveryDigest : Option Digest) : Prog Digest MigrationResult := do
  sys .mkdirBackup
  let originalDigest ← backupRaw recoveryDigest
  let rawDigest ← sys (.digest .raw)
  if rawDigest ≠ originalDigest then raise .rawCheck else publishBackup m input originalDigest

def migrateSource (recoveryDigest : Option Digest) (adoptingFreshSource : Bool) : Prog Digest MigrationResult := do
  if input.ambiguousLegacyOwner ∧ recoveryDigest.isNone then raise .ambiguousOwner
  else if ← sys (.exists .target) then raise .bothExist
  else if input.readOnly then raise .readOnlyMigration
  else if !(← sys (.matchesKind m.kind)) then raise .wrongType
  else if recoveryDigest.isNone ∧ !adoptingFreshSource then
    if ← sys .backupExists then raise .earlierBackup else publishMigration m input none
  else publishMigration m input recoveryDigest

/-- There is nothing to migrate: the new storage starts fresh. -/
def startFresh : Prog Digest MigrationResult :=
  if input.readOnly then pure .unchanged
  else do
    sys .mkdirBackup
    sys (.writeReceipt (freshReceipt m))
    pure .unchanged

def migrate : Prog Digest MigrationResult :=
  if input.customPath then pure .customPath
  else do
    match ← openReceipt m input with
    | .done result => pure result
    | .proceed recoveryDigest adoptingFreshSource =>
      if ← sys (.exists .source) then migrateSource m input recoveryDigest adoptingFreshSource
      else startFresh m input

/-- A run of `applyPluginStorageMigrations` over the migration; an error of the migration is its result. -/
def applyPluginStorageMigration : Prog Digest MigrationResult :=
  (migrate m input).attempt fun error ↦ pure (.failed error)

/-! ## Runs -/

/-- A run to its end, or one that is killed after so many file operations or inside the next one. -/
inductive Run where
  | complete (given : RunInput)
  | killed (given : RunInput) (operations : Nat) (torn : Option Tree)

def Run.uuid : Run → Nat
  | .complete given => given.uuid
  | .killed given _ _ => given.uuid

/-- The runs over one migration, one after the other; each draws a fresh UUID. -/
def runs (sha256 : List UInt8 → Digest) : Transitions.System (Disk Digest) Run (Option MigrationResult) where
  step run s :=
    if (s.staged run.uuid).isSome then none
    else
      match run with
      | .complete given =>
        let (outcome, s) := (applyPluginStorageMigration m given).run (exec sha256) s
        some (outcome.toOption, s)
      | .killed given operations torn =>
        ((machine sha256).stop operations torn (applyPluginStorageMigration m given) s).map fun s ↦ (none, s)

/-- The original storage before any run. -/
def initial (original : Tree) : Disk Digest where
  source := some original
  target := none
  backup := false
  raw := none
  receipt := none
  adoption := none
  staged _ := none

end RabiRoute.PluginStorage
