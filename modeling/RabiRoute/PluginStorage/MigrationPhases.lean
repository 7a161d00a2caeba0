import RabiRoute.PluginStorage.Migration
import RabiRoute.PluginStorage.TreeDigest

/-!
# The phases of a migration

The receipt tells how far the migration is.  Every file operation of a run leaves one of its phases, so a
killed run does; and a run that is not killed goes on from each phase that the deaths left whole.
-/

open Interleave Interleave.Program

namespace RabiRoute.PluginStorage

variable {Digest : Type} {sha256 : List UInt8 → Digest} {m : Migration} {original : Tree}

/-- The receipt of the migration once the source is gone. -/
def migratedReceipt (m : Migration) (digest : Digest) : Receipt Digest :=
  ⟨1, m.source, m.target, some digest, some digest, .migrated⟩

/-- Nothing is written but perhaps an unfinished backup. -/
structure Unprepared (original : Tree) (s : Disk Digest) : Prop where
  receipt : s.receipt = none
  source : s.source = some original
  target : s.target = none
  raw : s.backup = false → s.raw = none

/-- The backup is whole, and the receipt says so. -/
structure Backed (sha256 : List UInt8 → Digest) (m : Migration) (original : Tree) (receipt : Digest → Receipt Digest)
    (s : Disk Digest) : Prop where
  backup : s.backup = true
  raw : s.raw = some original
  digest : ∃ digest, digestTree sha256 original = some digest ∧ s.receipt = some (receipt digest)

/-- How far the migration is. -/
inductive Phase (sha256 : List UInt8 → Digest) (m : Migration) (original : Tree) (s : Disk Digest) : Prop where
  | unprepared (h : Unprepared original s)
  | prepared (h : Backed sha256 m original (preparedReceipt m) s) (source : s.source = some original)
      (target : s.target = none)
  /-- The source may be gone in part. -/
  | published (h : Backed sha256 m original (preparedReceipt m) s) (target : s.target = some original)
  | finished (h : Backed sha256 m original (migratedReceipt m) s) (source : s.source = none)
      (target : s.target = some original)

/-- The migration is done. -/
structure Finished (sha256 : List UInt8 → Digest) (m : Migration) (original : Tree) (s : Disk Digest) : Prop where
  backed : Backed sha256 m original (migratedReceipt m) s
  source : s.source = none
  target : s.target = some original

/-- No death has left a backup directory without a receipt, or a part of the source. -/
structure Resumable (original : Tree) (s : Disk Digest) : Prop where
  backup : s.receipt = none → s.backup = false
  source : s.source = none ∨ s.source = some original

theorem Finished.phase {s : Disk Digest} (h : Finished sha256 m original s) : Phase sha256 m original s :=
  .finished h.backed h.source h.target

/-- A complete copy of the original is somewhere. -/
theorem Phase.copy {s : Disk Digest} (h : Phase sha256 m original s) :
    s.source = some original ∨ s.target = some original ∨ s.raw = some original := by
  cases h with
  | unprepared h => exact .inl h.source
  | prepared h source target => exact .inl source
  | published h target => exact .inr (.inl target)
  | finished h source target => exact .inr (.inl target)

/-- The target is never there in part. -/
theorem Phase.target {s : Disk Digest} (h : Phase sha256 m original s) :
    s.target = none ∨ s.target = some original := by
  cases h with
  | unprepared h => exact .inl h.target
  | prepared h source target => exact .inl target
  | published h target => exact .inr target
  | finished h source target => exact .inr target

/-! ## Single steps -/

abbrev Keeps (sha256 : List UInt8 → Digest) {α : Type} (P : Disk Digest → Prop)
    (Q : Except MigrationError α → Disk Digest → Prop) (p : Prog Digest α) (s : Disk Digest) : Prop :=
  (machine sha256).Keeps P Q p s

section Rules

variable {α : Type} {P : Disk Digest → Prop} {Q : Except MigrationError α → Disk Digest → Prop}
  {s s' : Disk Digest}

theorem keeps_sys {c : Cmd Digest} {k : c.Val → Prog Digest α} (v : c.Val) (hexec : exec sha256 c s = (.ok v, s'))
    (hP : P s) (htear : ∀ x s₁, tear c x s = some s₁ → P s₁) (hk : Keeps sha256 P Q (k v) s') :
    Keeps sha256 P Q (sys c >>= k) s := by
  refine ⟨hP, htear, ?_⟩
  show (machine sha256).Keeps P Q (Program.handle _ k .raise) (exec sha256 c s).2
  have hexec' : (machine sha256).exec c s = (.ok v, s') := hexec
  rw [hexec, hexec']
  exact hk

theorem keeps_sys_error {c : Cmd Digest} {k : c.Val → Prog Digest α} (e : MigrationError)
    (hexec : exec sha256 c s = (.error e, s')) (hP : P s) (htear : ∀ x s₁, tear c x s = some s₁ → P s₁)
    (hP' : P s') (hQ : Q (.error e) s') : Keeps sha256 P Q (sys c >>= k) s := by
  refine ⟨hP, htear, ?_⟩
  show (machine sha256).Keeps P Q (Program.handle _ k .raise) (exec sha256 c s).2
  have hexec' : (machine sha256).exec c s = (.error e, s') := hexec
  rw [hexec, hexec']
  exact ⟨hP', hQ⟩

theorem keeps_last {c : Cmd Digest} {Q : Except MigrationError c.Val → Disk Digest → Prop} (v : c.Val)
    (hexec : exec sha256 c s = (.ok v, s')) (hP : P s) (htear : ∀ x s₁, tear c x s = some s₁ → P s₁) (hP' : P s')
    (hQ : Q (.ok v) s') : Keeps sha256 P Q (sys c) s := by
  refine ⟨hP, htear, ?_⟩
  have hexec' : (machine sha256).exec c s = (.ok v, s') := hexec
  rw [hexec']
  exact ⟨hP', hQ⟩

/-- A command that only looks. -/
theorem keeps_look {c : Cmd Digest} {k : c.Val → Prog Digest α} (v : c.Val) (hexec : exec sha256 c s = (.ok v, s)) (hP :
    P s) (htear : ∀ x, tear c x s = none) (hk : Keeps sha256 P Q (k v) s) : Keeps sha256 P Q (sys c >>= k) s :=
  keeps_sys v hexec hP (fun x s₁ h => by rw [htear x] at h; cases h) hk

theorem exec_digest {p : Place} {tree : Tree} {digest : Digest} (hp : s.node p = some tree)
    (hd : digestTree sha256 tree = some digest) : exec sha256 (.digest p) s = (.ok digest, s) := by
  simp only [exec, hp, hd, Option.elim_some]

theorem tear_copy {src dst : Place} {part : Tree} (h : tear (.copy src dst) part s = some s') :
    s' = s.set dst (some part) := by
  simp only [tear] at h
  split at h
  · exact (Option.some.inj h).symm
  · cases h

theorem tear_remove {p : Place} {part : Tree} (h : tear (.remove p) part s = some s') : s' = s.set p (some part) := by
  simp only [tear] at h
  split at h
  · exact (Option.some.inj h).symm
  · cases h

theorem supported_of_digest {tree : Tree} {digest : Digest} (h : digestTree sha256 tree = some digest) :
    tree.supported = true := by
  unfold digestTree at h
  split at h
  · assumption
  · cases h

theorem exec_copy {src dst : Place} {tree : Tree} {digest : Digest} (hsrc : s.node src = some tree)
    (hdst : s.node dst = none) (hd : digestTree sha256 tree = some digest) :
    exec sha256 (.copy src dst) s = (.ok (), s.set dst (some tree)) := by
  simp only [exec, hdst, hsrc, Option.isSome_none, Bool.false_eq_true, if_false, Option.elim_some,
    supported_of_digest hd, if_true]

theorem exec_publish {uuid : Nat} {tree : Tree} (hstaged : s.staged uuid = some tree) :
    exec sha256 (.publish uuid) s = (.ok (), (s.set (.staged uuid) none).set .target (some tree)) := by
  simp only [exec, hstaged, Option.elim_some]

end Rules

/-! ## The migration proper -/

section Publishing

variable [DecidableEq Digest] {s : Disk Digest} {digest : Digest} {input : RunInput}

omit [DecidableEq Digest] in
/-- A candidate is no part of any phase. -/
theorem Phase.setStaged (h : Phase sha256 m original s) (uuid : Nat) (tree : Option Tree) :
    Phase sha256 m original (s.set (.staged uuid) tree) := by
  cases h with
  | unprepared h => exact .unprepared ⟨h.receipt, h.source, h.target, h.raw⟩
  | prepared h source target => exact .prepared ⟨h.backup, h.raw, h.digest⟩ source target
  | published h target => exact .published ⟨h.backup, h.raw, h.digest⟩ target
  | finished h source target => exact .finished ⟨h.backup, h.raw, h.digest⟩ source target

theorem keeps_retireSource (hd : digestTree sha256 original = some digest)
    (h : Backed sha256 m original (preparedReceipt m) s) (hsource : s.source = some original)
    (htarget : s.target = some original) :
    Keeps sha256 (Phase sha256 m original)
      (fun outcome s' => outcome = .ok (.migrated false) ∧ Finished sha256 m original s')
      (retireSource m digest digest) s := by
  have hphase : Phase sha256 m original s := .published h htarget
  refine keeps_look digest (exec_digest htarget hd) hphase (fun _ => rfl) ?_
  rw [if_neg (not_not_intro rfl)]
  have hremove : exec sha256 (.remove .source) s = (.ok (), { s with source := none }) := by
    simp only [exec, Disk.node, hsource, Option.isSome_some, if_true]
    rfl
  refine keeps_sys () hremove hphase (fun part s₁ htear => ?_) ?_
  · rw [tear_remove htear]
    exact .published ⟨h.backup, h.raw, h.digest⟩ htarget
  · have hwrite : exec sha256 (.writeReceipt (migratedReceipt m digest)) { s with source := none } =
        (.ok (), { s with source := none, receipt := some (migratedReceipt m digest) }) := if_pos h.backup
    have hfinished : Finished sha256 m original { s with source := none, receipt := some (migratedReceipt m digest) } :=
      ⟨⟨h.backup, h.raw, digest, hd, rfl⟩, rfl, htarget⟩
    refine keeps_sys () hwrite (.published ⟨h.backup, h.raw, h.digest⟩ htarget) (fun _ _ h => by cases h) ?_
    exact ⟨hfinished.phase, rfl, hfinished⟩

/-- The backup is whole and its source is in place: what `publishBackup` starts from. -/
structure Backup (sha256 : List UInt8 → Digest) (m : Migration) (original : Tree) (uuid : Nat) (s : Disk Digest) :
    Prop where
  phase : Phase sha256 m original s
  backup : s.backup = true
  raw : s.raw = some original
  source : s.source = some original
  target : s.target = none
  staged : s.staged uuid = none

theorem keeps_publishCandidate (hd : digestTree sha256 original = some digest)
    (h : Backup sha256 m original input.uuid s) :
    Keeps sha256 (Phase sha256 m original)
      (fun outcome s' => outcome = .ok digest ∧ Backed sha256 m original (preparedReceipt m) s' ∧
        s'.source = some original ∧ s'.target = some original)
      (publishCandidate m input digest) s := by
  refine keeps_sys () (exec_copy h.raw h.staged hd) h.phase (fun part s₁ htear => ?_) ?_
  · rw [tear_copy htear]
    exact h.phase.setStaged _ _
  have hcandidate : (s.set (.staged input.uuid) (some original)).node (.staged input.uuid) = some original :=
    if_pos rfl
  have hphase := h.phase.setStaged input.uuid (some original)
  refine keeps_look digest (exec_digest hcandidate hd) hphase (fun _ => rfl) ?_
  rw [if_neg (not_not_intro rfl)]
  refine keeps_look digest (exec_digest hcandidate hd) hphase (fun _ => rfl) ?_
  have hwrite : exec sha256 (.writeReceipt (preparedReceipt m digest)) (s.set (.staged input.uuid) (some original)) =
      (.ok (), { s.set (.staged input.uuid) (some original) with receipt := some (preparedReceipt m digest) }) :=
    if_pos h.backup
  refine keeps_sys () hwrite hphase (fun _ _ h => by cases h) ?_
  have hprepared : Backed sha256 m original (preparedReceipt m)
      { s.set (.staged input.uuid) (some original) with receipt := some (preparedReceipt m digest) } :=
    ⟨h.backup, h.raw, digest, hd, rfl⟩
  refine keeps_sys () (exec_publish (if_pos rfl)) (.prepared hprepared h.source h.target) (fun _ _ h => by cases h) ?_
  have hpublished : Backed sha256 m original (preparedReceipt m)
      ((Disk.set { s.set (.staged input.uuid) (some original) with
        receipt := some (preparedReceipt m digest) } (.staged input.uuid) none).set .target (some original)) :=
    ⟨h.backup, h.raw, digest, hd, rfl⟩
  exact ⟨.published hpublished rfl, rfl, hpublished, h.source, rfl⟩

theorem keeps_publishBackup (hd : digestTree sha256 original = some digest)
    (h : Backup sha256 m original input.uuid s) :
    Keeps sha256 (Phase sha256 m original)
      (fun outcome s' => outcome = .ok (.migrated false) ∧ Finished sha256 m original s')
      (publishBackup m input digest) s := by
  refine keeps_look () rfl h.phase (fun _ => rfl) ?_
  have hcandidate : Keeps sha256 (Phase sha256 m original)
      (fun outcome s' => outcome = .ok digest ∧ Backed sha256 m original (preparedReceipt m) s' ∧
        s'.source = some original ∧ s'.target = some original)
      ((publishCandidate m input digest).attempt fun error => do
        sys (.discard input.uuid)
        raise error) s := by
    refine (keeps_publishCandidate hd h).handle (fun targetDigest s hphase h => ?_) fun e s _ h => ?_
    · exact ⟨hphase, h⟩
    · cases h.1
  refine hcandidate.bind (fun targetDigest s _ h => ?_) fun e s _ h => ?_
  · obtain ⟨heq, hbacked, hsource, htarget⟩ := h
    cases heq
    exact keeps_retireSource hd hbacked hsource htarget
  · cases h.1

/-- A prepared migration is published from its backup. -/
theorem keeps_publishPrepared (hd : digestTree sha256 original = some digest)
    (h : Backed sha256 m original (preparedReceipt m) s) (hsource : s.source = some original)
    (htarget : s.target = none) (hstaged : s.staged input.uuid = none) :
    Keeps sha256 (Phase sha256 m original)
      (fun outcome s' => outcome = .ok (.migrated false) ∧ Finished sha256 m original s')
      (publishMigration m input (some digest)) s := by
  have h' : Backed sha256 m original (preparedReceipt m) { s with backup := true } := ⟨rfl, h.raw, h.digest⟩
  refine keeps_sys () rfl (.prepared h hsource htarget) (fun _ _ h => by cases h) ?_
  have hphase : Phase sha256 m original { s with backup := true } := .prepared h' hsource htarget
  refine keeps_look digest (exec_digest h.raw hd) hphase (fun _ => rfl) ?_
  rw [if_neg (not_not_intro rfl)]
  exact keeps_publishBackup hd ⟨hphase, rfl, h.raw, hsource, htarget, hstaged⟩

omit [DecidableEq Digest] in
/-- The first backup copies the source, if its digest can be taken. -/
theorem keeps_backupFirst (h : Unprepared original s) (hbackup : s.backup = true) (hraw : s.raw = none)
    (hstaged : s.staged input.uuid = none) :
    Keeps sha256 (Phase sha256 m original)
      (fun outcome s' => (∃ digest, outcome = .ok digest ∧ digestTree sha256 original = some digest ∧
        Backup sha256 m original input.uuid s') ∨ (∃ e, outcome = .error e) ∧ original.supported = false)
      (backupRaw none) s := by
  cases hd : digestTree sha256 original with
  | none =>
    have hfails : exec sha256 (.digest .source) s = (.error .unsupportedType, s) := by
      simp only [exec, Disk.node, h.source, hd, Option.elim_some, Option.elim_none]
    refine keeps_sys_error .unsupportedType hfails (.unprepared h) (fun _ _ h => by cases h) (.unprepared h)
      (.inr ⟨⟨_, rfl⟩, ?_⟩)
    by_contra hsupported
    unfold digestTree at hd
    rw [if_pos (by simpa using hsupported)] at hd
    cases hd
  | some digest =>
    refine keeps_look digest (exec_digest h.source hd) (.unprepared h) (fun _ => rfl) ?_
    have hphase : ∀ tree, Phase sha256 m original (s.set .raw tree) := fun tree =>
      .unprepared ⟨h.receipt, h.source, h.target, fun hf => absurd (hf.symm.trans hbackup) Bool.false_ne_true⟩
    refine keeps_sys () (exec_copy h.source hraw hd) (.unprepared h) (fun part s₁ htear => ?_) ?_
    · rw [tear_copy htear]
      exact hphase _
    · exact ⟨hphase _, .inl ⟨digest, rfl, rfl, hphase _, hbackup, rfl, h.source, h.target, hstaged⟩⟩

/-- The first migration makes its backup and is published from it. -/
theorem keeps_publishFirst (h : Unprepared original s) (hraw : s.raw = none) (hstaged : s.staged input.uuid = none) :
    Keeps sha256 (Phase sha256 m original)
      (fun outcome s' => original.supported = true → outcome = .ok (.migrated false) ∧ Finished sha256 m original s')
      (publishMigration m input none) s := by
  have h' : Unprepared original { s with backup := true } := ⟨h.receipt, h.source, h.target, fun hf => by cases hf⟩
  refine keeps_sys () rfl (.unprepared h) (fun _ _ h => by cases h) ?_
  refine (keeps_backupFirst h' rfl hraw hstaged).bind (fun originalDigest s _ h => ?_) fun e s _ h hsupported => ?_
  · rcases h with ⟨digest, heq, hd, hready⟩ | ⟨⟨e, he⟩, -⟩
    · cases heq
      refine keeps_look originalDigest (exec_digest hready.raw hd) hready.phase (fun _ => rfl) ?_
      rw [if_neg (not_not_intro rfl)]
      exact (keeps_publishBackup hd hready).mono (fun _ h => h) fun _ _ h _ => h
    · cases he
  · rcases h with ⟨digest, heq, -⟩ | ⟨-, hunsupported⟩
    · cases heq
    · exact absurd (hunsupported.symm.trans hsupported) Bool.false_ne_true

/-! ## One run -/

/-- The run may write, and nothing exempts this migration from it. -/
def RunInput.migrates (input : RunInput) (s : Disk Digest) : Prop :=
  input.readOnly = false ∧ input.customPath = false ∧ (s.receipt = none → input.ambiguousLegacyOwner = false)

/-- What a run to its end makes of a state that the deaths left whole. -/
def Settles (sha256 : List UInt8 → Digest) (m : Migration) (original : Tree) (input : RunInput) (s : Disk Digest)
    (outcome : Except MigrationError MigrationResult) (s' : Disk Digest) : Prop :=
  original.supported = true → original.matchesKind m.kind = true → Resumable original s →
    Resumable original s' ∧ (input.migrates s → Finished sha256 m original s' ∧
      ((∃ finished, outcome = .ok (.migrated finished)) ∨
        Finished sha256 m original s ∧ outcome = .ok .unchanged))

omit [DecidableEq Digest] in
theorem settles_same {outcome : Except MigrationError MigrationResult} (h : ¬input.migrates s) :
    Settles sha256 m original input s outcome s :=
  fun _ _ hs => ⟨hs, fun hm => absurd hm h⟩

omit [DecidableEq Digest] in
theorem settles_finished {outcome : Except MigrationError MigrationResult} {s' : Disk Digest} {finished : Bool}
    (houtcome : outcome = .ok (.migrated finished)) (h : Finished sha256 m original s') :
    Settles sha256 m original input s outcome s' := by
  obtain ⟨digest, -, hreceipt⟩ := h.backed.digest
  refine fun _ _ _ => ⟨⟨fun hnone => ?_, .inl h.source⟩, fun _ => ⟨h, .inl ⟨finished, houtcome⟩⟩⟩
  rw [hnone] at hreceipt
  cases hreceipt

/-- Nothing is written yet: the run migrates the source, or refuses. -/
theorem keeps_unprepared (h : Unprepared original s) (hstaged : s.staged input.uuid = none) :
    Keeps sha256 (Phase sha256 m original) (Settles sha256 m original input s)
      (migrateSource m input none false) s := by
  have hphase : Phase sha256 m original s := .unprepared h
  unfold migrateSource
  by_cases hambiguous : input.ambiguousLegacyOwner = true
  · rw [if_pos ⟨hambiguous, rfl⟩]
    exact ⟨hphase, settles_same fun hm => absurd (hm.2.2 h.receipt) (by rw [hambiguous]; exact Bool.noConfusion)⟩
  rw [if_neg fun hc => hambiguous hc.1]
  have htarget : exec sha256 (.exists .target) s = (.ok false, s) := by
    simp only [exec, Disk.node, h.target, Option.isSome_none]
  refine keeps_look false htarget hphase (fun _ => rfl) ?_
  rw [if_neg Bool.false_ne_true]
  by_cases hreadOnly : input.readOnly = true
  · rw [if_pos hreadOnly]
    exact ⟨hphase, settles_same fun hm => absurd (hreadOnly.symm.trans hm.1) Bool.noConfusion⟩
  rw [if_neg hreadOnly]
  have hkind : exec sha256 (.matchesKind m.kind) s = (.ok (original.matchesKind m.kind), s) := by
    simp only [exec, h.source, Option.elim_some]
  refine keeps_look _ hkind hphase (fun _ => rfl) ?_
  by_cases hmatches : original.matchesKind m.kind = true
  · rw [hmatches, if_neg (by decide), if_pos ⟨rfl, rfl⟩]
    refine keeps_look s.backup rfl hphase (fun _ => rfl) ?_
    by_cases hbackup : s.backup = true
    · rw [if_pos hbackup]
      exact ⟨hphase, fun _ _ hs => absurd ((hs.backup h.receipt).symm.trans hbackup) Bool.false_ne_true⟩
    · rw [if_neg hbackup]
      exact (keeps_publishFirst h (h.raw (by simpa using hbackup)) hstaged).mono (fun _ h => h)
        fun _ _ h hsupported => settles_finished (h hsupported).1 (h hsupported).2 hsupported
  · rw [if_pos (by simpa using hmatches)]
    exact ⟨hphase, fun _ hk => absurd hk hmatches⟩

/-- A prepared migration has its digest: the run publishes it again, or refuses. -/
theorem keeps_prepared (hd : digestTree sha256 original = some digest)
    (h : Backed sha256 m original (preparedReceipt m) s) (hsource : s.source = some original)
    (htarget : s.target = none) (hstaged : s.staged input.uuid = none) :
    Keeps sha256 (Phase sha256 m original) (Settles sha256 m original input s)
      (migrateSource m input (some digest) false) s := by
  have hphase : Phase sha256 m original s := .prepared h hsource htarget
  unfold migrateSource
  rw [if_neg fun hc => by cases hc.2]
  have hexists : exec sha256 (.exists .target) s = (.ok false, s) := by
    simp only [exec, Disk.node, htarget, Option.isSome_none]
  refine keeps_look false hexists hphase (fun _ => rfl) ?_
  rw [if_neg Bool.false_ne_true]
  by_cases hreadOnly : input.readOnly = true
  · rw [if_pos hreadOnly]
    exact ⟨hphase, settles_same fun hm => absurd (hreadOnly.symm.trans hm.1) Bool.noConfusion⟩
  rw [if_neg hreadOnly]
  have hkind : exec sha256 (.matchesKind m.kind) s = (.ok (original.matchesKind m.kind), s) := by
    simp only [exec, hsource, Option.elim_some]
  refine keeps_look _ hkind hphase (fun _ => rfl) ?_
  by_cases hmatches : original.matchesKind m.kind = true
  · rw [hmatches, if_neg (by decide), if_neg fun hc => by cases hc.1]
    exact (keeps_publishPrepared hd h hsource htarget hstaged).mono (fun _ h => h)
      fun _ _ h => settles_finished h.1 h.2
  · rw [if_pos (by simpa using hmatches)]
    exact ⟨hphase, fun _ hk => absurd hk hmatches⟩

/-- The storage is published, and its source may be there still: the run retires it. -/
theorem keeps_finishPublished (input : RunInput) (hd : digestTree sha256 original = some digest)
    (h : Backed sha256 m original (preparedReceipt m) s) (hsource : s.source = none ∨ s.source = some original)
    (htarget : s.target = some original) :
    Keeps sha256 (Phase sha256 m original)
      (fun outcome s' => (outcome = .ok (.done (.migrated true)) ∧ Finished sha256 m original s') ∨
        (∃ e, outcome = .error e) ∧ input.readOnly = true ∧ s' = s)
      (recoverPublication input (preparedReceipt m digest) s.source.isSome) s := by
  have hphase : Phase sha256 m original s := .published h htarget
  have hexists : exec sha256 (.exists .target) s = (.ok true, s) := by
    simp only [exec, Disk.node, htarget, Option.isSome_some]
  refine keeps_look true hexists hphase (fun _ => rfl) ?_
  rw [if_pos rfl]
  refine keeps_look digest (exec_digest htarget hd) hphase (fun _ => rfl) ?_
  rw [if_neg (show ¬some digest ≠ (preparedReceipt m digest).targetDigest from not_not_intro rfl)]
  by_cases hreadOnly : input.readOnly = true
  · rw [if_pos hreadOnly]
    exact ⟨hphase, .inr ⟨⟨_, rfl⟩, hreadOnly, rfl⟩⟩
  rw [if_neg hreadOnly]
  have hretired : Keeps sha256 (Phase sha256 m original)
      (fun outcome s' => outcome = .ok () ∧ s' = { s with source := none }) (retire s.source.isSome) s := by
    rcases hsource with hnone | hsome
    · have hs : s = { s with source := none } := by
        cases s
        cases hnone
        rfl
      rw [hnone]
      exact ⟨hphase, rfl, hs⟩
    · rw [hsome]
      have hremove : exec sha256 (.remove .source) s = (.ok (), { s with source := none }) := by
        simp only [exec, Disk.node, hsome, Option.isSome_some, if_true]
        rfl
      refine keeps_last () hremove hphase (fun part s₁ htear => ?_) (.published ⟨h.backup, h.raw, h.digest⟩ htarget)
        ⟨rfl, rfl⟩
      rw [tear_remove htear]
      exact .published ⟨h.backup, h.raw, h.digest⟩ htarget
  refine hretired.bind (fun _ s₁ _ h₁ => ?_) fun e s₁ _ h₁ => by cases h₁.1
  obtain ⟨-, rfl⟩ := h₁
  have hwrite : exec sha256 (.writeReceipt (migratedReceipt m digest)) { s with source := none } =
      (.ok (), { s with source := none, receipt := some (migratedReceipt m digest) }) := if_pos h.backup
  have hfinished : Finished sha256 m original { s with source := none, receipt := some (migratedReceipt m digest) } :=
    ⟨⟨h.backup, h.raw, digest, hd, rfl⟩, rfl, htarget⟩
  refine keeps_sys () hwrite (.published ⟨h.backup, h.raw, h.digest⟩ htarget) (fun _ _ h => by cases h) ?_
  exact ⟨hfinished.phase, .inl ⟨rfl, hfinished⟩⟩

/-- How the prepared receipt opens a run: it is finished, published again, or refused. -/
theorem keeps_openPrepared (hsha : Function.Injective sha256) (hd : digestTree sha256 original = some digest)
    (h : Backed sha256 m original (preparedReceipt m) s)
    (hplace : s.target = some original ∨ s.target = none ∧ s.source = some original) :
    Keeps sha256 (Phase sha256 m original)
      (fun outcome s' => (outcome = .ok (.done (.migrated true)) ∧ Finished sha256 m original s') ∨
        (outcome = .ok (.proceed (some digest) false) ∧ s' = s ∧ s.target = none ∧ s.source = some original) ∨
        (∃ e, outcome = .error e) ∧ (Resumable original s → input.readOnly = true) ∧ s' = s)
      (openReceipt m input) s := by
  have hphase : Phase sha256 m original s := by
    rcases hplace with htarget | ⟨htarget, hsource⟩
    · exact .published h htarget
    · exact .prepared h hsource htarget
  have hreceipt : s.receipt = some (preparedReceipt m digest) := by
    obtain ⟨digest', hd', hreceipt⟩ := h.digest
    cases hd.symm.trans hd'
    exact hreceipt
  have hopen : Keeps sha256 (Phase sha256 m original)
      (fun outcome s' => (outcome = .ok (.done (.migrated true)) ∧ Finished sha256 m original s') ∨
        (outcome = .ok (.proceed (some digest) false) ∧ s' = s ∧ s.target = none ∧ s.source = some original) ∨
        (∃ e, outcome = .error e) ∧ (Resumable original s → input.readOnly = true) ∧ s' = s)
      (recoverPrepared m input (preparedReceipt m digest)) s := by
    have hproves : (preparedReceipt m digest).proves m = true := decide_eq_true ⟨rfl, rfl, rfl, rfl, rfl, rfl⟩
    unfold recoverPrepared
    rw [hproves, if_neg (by decide)]
    refine keeps_look digest (exec_digest h.raw hd) hphase (fun _ => rfl) ?_
    rw [if_neg (show ¬some digest ≠ (preparedReceipt m digest).originalDigest from not_not_intro rfl)]
    refine keeps_look s.source.isSome rfl hphase (fun _ => rfl) ?_
    cases hsource : s.source with
    | none =>
      rw [Option.isSome_none, if_neg Bool.false_ne_true]
      rcases hplace with htarget | ⟨-, hpresent⟩
      · have hfinish := keeps_finishPublished input hd h (.inl hsource) htarget
        rw [hsource, Option.isSome_none] at hfinish
        refine hfinish.mono (fun _ h => h) fun outcome s' hend => ?_
        rcases hend with hdone | ⟨herror, hreadOnly, rfl⟩
        · exact .inl hdone
        · exact .inr (.inr ⟨herror, fun _ => hreadOnly, rfl⟩)
      · rw [hsource] at hpresent
        cases hpresent
    | some tree =>
      rw [Option.isSome_some, if_pos rfl]
      cases hdt : digestTree sha256 tree with
      | none =>
        have hfails : exec sha256 (.digest .source) s = (.error .unsupportedType, s) := by
          simp only [exec, Disk.node, hsource, hdt, Option.elim_some, Option.elim_none]
        refine keeps_sys_error _ hfails hphase (fun _ _ h => by cases h) hphase
          (.inr (.inr ⟨⟨_, rfl⟩, fun hs => ?_, rfl⟩))
        rcases hs.source with hgone | hwhole
        · rw [hsource] at hgone
          cases hgone
        · rw [hsource] at hwhole
          cases hwhole
          cases hd.symm.trans hdt
      | some found =>
        refine keeps_look found (exec_digest hsource hdt) hphase (fun _ => rfl) ?_
        by_cases hsame : some found ≠ (preparedReceipt m digest).originalDigest
        · rw [if_pos hsame]
          refine ⟨hphase, .inr (.inr ⟨⟨_, rfl⟩, fun hs => ?_, rfl⟩)⟩
          rcases hs.source with hgone | hwhole
          · rw [hsource] at hgone
            cases hgone
          · rw [hsource] at hwhole
            cases hwhole
            exact absurd (hdt.symm.trans hd) hsame
        · rw [if_neg hsame]
          have hfound : some found = some digest := not_not.mp hsame
          cases hfound
          have htree : tree = original := digestTree_injective hsha hdt hd
          rw [htree] at hsource
          rcases hplace with htarget | ⟨htarget, -⟩
          · have hfinish := keeps_finishPublished input hd h (.inr hsource) htarget
            rw [hsource, Option.isSome_some] at hfinish
            refine hfinish.mono (fun _ h => h) fun outcome s' hend => ?_
            rcases hend with hdone | ⟨herror, hreadOnly, rfl⟩
            · exact .inl hdone
            · exact .inr (.inr ⟨herror, fun _ => hreadOnly, rfl⟩)
          · have hexists : exec sha256 (.exists .target) s = (.ok false, s) := by
              simp only [exec, Disk.node, htarget, Option.isSome_none]
            refine keeps_look false hexists hphase (fun _ => rfl) ?_
            exact ⟨hphase, .inr (.inl ⟨rfl, rfl, htarget, congrArg some htree⟩)⟩
  refine keeps_look true (by simp only [exec, hreceipt, Option.isSome_some]) hphase (fun _ => rfl) ?_
  rw [if_pos rfl]
  have hread : exec sha256 .readReceipt s = (.ok (preparedReceipt m digest), s) := by
    simp only [exec, hreceipt, Option.elim_some]
  refine keeps_look _ hread hphase (fun _ => rfl) ?_
  have hclosed : (preparedReceipt m digest).closed m = false := decide_eq_false fun hc => hc.2.2 rfl
  rw [hclosed, if_neg Bool.false_ne_true]
  exact hopen

omit [DecidableEq Digest] in
theorem settles_unchanged (h : Finished sha256 m original s) : Settles sha256 m original input s (.ok .unchanged) s :=
  fun _ _ hs => ⟨hs, fun _ => ⟨h, .inr ⟨h, rfl⟩⟩⟩

theorem keeps_openFinished {P : Disk Digest → Prop} (h : Finished sha256 m original s) (hP : P s) :
    Keeps sha256 P (fun outcome s' => outcome = .ok (.done .unchanged) ∧ s' = s) (openReceipt m input) s := by
  obtain ⟨digest, -, hreceipt⟩ := h.backed.digest
  refine keeps_look true (by simp only [exec, hreceipt, Option.isSome_some]) hP (fun _ => rfl) ?_
  rw [if_pos rfl]
  have hread : exec sha256 .readReceipt s = (.ok (migratedReceipt m digest), s) := by
    simp only [exec, hreceipt, Option.elim_some]
  refine keeps_look _ hread hP (fun _ => rfl) ?_
  have hclosed : (migratedReceipt m digest).closed m = true := decide_eq_true ⟨rfl, rfl, ReceiptStatus.noConfusion⟩
  rw [hclosed, if_pos rfl, if_neg fun hc => by cases hc.1]
  exact ⟨hP, rfl, rfl⟩

/-- A migration that is done stays as it is, at every moment of a run. -/
theorem keeps_finished (input : RunInput) (h : Finished sha256 m original s) :
    Keeps sha256 (· = s) (fun outcome _ => outcome = .ok (if input.customPath then .customPath else .unchanged))
      (applyPluginStorageMigration m input) s := by
  have hmigrate : Keeps sha256 (· = s)
      (fun outcome s' => outcome = .ok (if input.customPath then .customPath else .unchanged) ∧ s' = s)
      (migrate m input) s := by
    unfold migrate
    by_cases hcustom : input.customPath = true
    · rw [if_pos hcustom, if_pos hcustom]
      exact ⟨rfl, rfl, rfl⟩
    rw [if_neg hcustom, if_neg hcustom]
    have hopen : Keeps sha256 (· = s) (fun outcome s' => outcome = .ok (.done .unchanged) ∧ s' = s)
        (openReceipt m input) s := keeps_openFinished h rfl
    refine hopen.bind (fun opening s₁ _ h₁ => ?_) fun e s₁ _ h₁ => by cases h₁.1
    obtain ⟨heq, rfl⟩ := h₁
    cases heq
    exact ⟨rfl, rfl, rfl⟩
  exact hmigrate.handle (fun result s₁ hs h₁ => ⟨hs, h₁.1⟩) fun e s₁ _ h₁ => by cases h₁.1

/-- One run, from any phase. -/
theorem keeps_migrate (hsha : Function.Injective sha256) (h : Phase sha256 m original s) (hstaged : s.staged input.uuid
    = none) : Keeps sha256 (Phase sha256 m original) (Settles sha256 m original input s) (migrate m input) s := by
  unfold migrate
  by_cases hcustom : input.customPath = true
  · rw [if_pos hcustom]
    exact ⟨h, settles_same fun hm => absurd (hcustom.symm.trans hm.2.1) Bool.noConfusion⟩
  rw [if_neg hcustom]
  have hrefused : ∀ {e : MigrationError} {s' : Disk Digest}, Phase sha256 m original s' →
      (Resumable original s → input.readOnly = true) ∧ s' = s →
      Settles sha256 m original input s (.error e) s' := by
    rintro e s' - ⟨hreadOnly, rfl⟩ - - hs
    exact ⟨hs, fun hm => absurd ((hreadOnly hs).symm.trans hm.1) Bool.noConfusion⟩
  have hprepared : ∀ digest, digestTree sha256 original = some digest →
      Backed sha256 m original (preparedReceipt m) s →
      s.target = some original ∨ s.target = none ∧ s.source = some original →
      ∀ rest : Opening Digest → Prog Digest MigrationResult,
      (∀ result, rest (.done result) = pure result) →
      (∀ recoveryDigest adoptingFreshSource, rest (.proceed recoveryDigest adoptingFreshSource) = (do
        if ← sys (.exists .source) then migrateSource m input recoveryDigest adoptingFreshSource
        else startFresh m input)) →
      Keeps sha256 (Phase sha256 m original) (Settles sha256 m original input s) (openReceipt m input >>= rest) s := by
    intro digest hd hbacked hplace rest hdone hproceed
    refine (keeps_openPrepared hsha hd hbacked hplace).bind (fun opening s' _ hend => ?_) fun e s' hphase hend => ?_
    · rcases hend with ⟨heq, hfinished⟩ | ⟨heq, rfl, htarget, hsource⟩ | ⟨⟨e, he⟩, -⟩
      · cases heq
        rw [hdone]
        exact ⟨hfinished.phase, settles_finished rfl hfinished⟩
      · cases heq
        rw [hproceed]
        have hexists : exec sha256 (.exists .source) s' = (.ok true, s') := by
          simp only [exec, Disk.node, hsource, Option.isSome_some]
        refine keeps_look true hexists h (fun _ => rfl) ?_
        rw [if_pos rfl]
        exact keeps_prepared hd hbacked hsource htarget hstaged
      · cases he
    · rcases hend with ⟨heq, -⟩ | ⟨heq, -⟩ | ⟨-, hrest⟩
      · cases heq
      · cases heq
      · exact hrefused hphase hrest
  cases h with
  | unprepared h =>
    have hopen : Keeps sha256 (Phase sha256 m original)
        (fun outcome s' => outcome = .ok (.proceed none false) ∧ s' = s) (openReceipt m input) s := by
      refine keeps_look false (by simp only [exec, h.receipt, Option.isSome_none]) (.unprepared h) (fun _ => rfl) ?_
      rw [if_neg Bool.false_ne_true]
      exact ⟨.unprepared h, rfl, rfl⟩
    refine hopen.bind (fun opening s' _ hend => ?_) fun e s' _ hend => by cases hend.1
    obtain ⟨heq, rfl⟩ := hend
    cases heq
    have hexists : exec sha256 (.exists .source) s' = (.ok true, s') := by
      simp only [exec, Disk.node, h.source, Option.isSome_some]
    refine keeps_look true hexists (.unprepared h) (fun _ => rfl) ?_
    rw [if_pos rfl]
    exact keeps_unprepared h hstaged
  | prepared h source target =>
    obtain ⟨digest, hd, -⟩ := h.digest
    exact hprepared digest hd h (.inr ⟨target, source⟩) _ (fun _ => rfl) fun _ _ => rfl
  | published h target =>
    obtain ⟨digest, hd, -⟩ := h.digest
    exact hprepared digest hd h (.inl target) _ (fun _ => rfl) fun _ _ => rfl
  | finished h source target =>
    have hfinished : Finished sha256 m original s := ⟨h, source, target⟩
    refine (keeps_openFinished hfinished hfinished.phase).bind (fun opening s' _ hend => ?_) fun e s' _ hend => by cases hend.1
    obtain ⟨heq, rfl⟩ := hend
    cases heq
    exact ⟨hfinished.phase, settles_unchanged hfinished⟩

/-- A run that is not killed ends with a result. -/
theorem keeps_applyPluginStorageMigration (input : RunInput) (hsha : Function.Injective sha256) (h : Phase sha256 m original s)
    (hstaged : s.staged input.uuid = none) :
    Keeps sha256 (Phase sha256 m original)
      (fun outcome s' => ∃ result, outcome = .ok result ∧ Settles sha256 m original input s (.ok result) s')
      (applyPluginStorageMigration m input) s := by
  refine (keeps_migrate hsha h hstaged).handle (fun result s' hphase h => ⟨hphase, result, rfl, h⟩) fun e s' hphase h => ?_
  refine ⟨hphase, .failed e, rfl, fun hsupported hkind hs => ⟨(h hsupported hkind hs).1, fun hm => ?_⟩⟩
  obtain ⟨-, ⟨finished, hok⟩ | ⟨-, hok⟩⟩ := (h hsupported hkind hs).2 hm
  · cases hok
  · cases hok

end Publishing

end RabiRoute.PluginStorage
