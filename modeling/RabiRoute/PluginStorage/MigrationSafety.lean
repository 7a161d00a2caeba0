import RabiRoute.PluginStorage.MigrationPhases

/-!
# What interrupted migrations keep

Whatever runs are killed, the original content is whole somewhere and never in part at the target.  The
first run that may write finishes the migration, unless a death left a backup without its receipt or a part
of the source.
-/

open Interleave Transitions.System

namespace RabiRoute.PluginStorage

instance (original : Tree) {Digest : Type} (s : Disk Digest) : Decidable (Resumable original s) :=
  decidable_of_iff ((s.receipt.isNone = true → s.backup = false) ∧ (s.source = none ∨ s.source = some original))
    ⟨fun h ↦ ⟨fun hnone ↦ h.1 (Option.isNone_iff_eq_none.mpr hnone), h.2⟩,
      fun h ↦ ⟨fun hnone ↦ h.backup (Option.isNone_iff_eq_none.mp hnone), h.source⟩⟩

variable {Digest : Type} [DecidableEq Digest]

/-- A death comes neither between the making of the backup directory and its receipt, nor while a part of
the source is removed. -/
def Spared (m : Migration) (sha256 : List UInt8 → Digest) (original : Tree) (run : Run) (s : Disk Digest) : Prop :=
  match run with
  | .complete _ => True
  | .killed given operations torn =>
    ∀ s' ∈ (machine sha256).stop operations torn (applyPluginStorageMigration m given) s, Resumable original s'

instance (m : Migration) (sha256 : List UInt8 → Digest) (original : Tree) (run : Run) (s : Disk Digest) :
    Decidable (Spared m sha256 original run s) :=
  match run with
  | .complete _ => .isTrue trivial
  | .killed _ _ _ => inferInstanceAs (Decidable (∀ s' ∈ _, _))

variable {sha256 : List UInt8 → Digest} {m : Migration} {original : Tree} {s s' : Disk Digest}

theorem step_phase (hsha : Function.Injective sha256) {run : Run} {a : Option MigrationResult} (h : Phase sha256 m
    original s) (hstep : (runs m sha256).step run s = some (a, s')) : Phase sha256 m original s' := by
  simp only [runs] at hstep
  split at hstep
  · cases hstep
  · next hstaged =>
      have hfresh : s.staged run.uuid = none := by simpa using hstaged
      cases run with
      | complete given =>
        cases hstep
        exact (keeps_applyPluginStorageMigration given hsha h hfresh).run.1
      | killed given operations torn =>
        obtain ⟨s₁, hstop, heq⟩ := Option.map_eq_some_iff.mp hstep
        cases heq
        exact (keeps_applyPluginStorageMigration given hsha h hfresh).stop hstop

theorem step_complete (hsha : Function.Injective sha256) {given : RunInput} (h : Phase sha256 m original s)
    (hfresh : s.staged given.uuid = none) :
    ∃ result s', (runs m sha256).step (.complete given) s = some (some result, s') ∧
      Settles sha256 m original given s (.ok result) s' := by
  obtain ⟨-, result, hresult, hsettles⟩ :=
    (keeps_applyPluginStorageMigration given hsha h hfresh).run
  refine ⟨result, _, ?_, hsettles⟩
  have hresult' : ((applyPluginStorageMigration m given).run (exec sha256) s).1 = .ok result := hresult
  simp only [runs, Run.uuid, hfresh, Option.isSome_none, Bool.false_eq_true, if_false, hresult']
  rfl

theorem step_resumable (hsha : Function.Injective sha256) (hsupported : original.supported = true)
    (hkind : original.matchesKind m.kind = true) {run : Run} {a : Option MigrationResult}
    (h : Phase sha256 m original s) (hs : Resumable original s) (hspared : Spared m sha256 original run s)
    (hstep : (runs m sha256).step run s = some (a, s')) : Resumable original s' := by
  cases run with
  | complete given =>
    by_cases hfresh : s.staged given.uuid = none
    · obtain ⟨result, s₁, hstep₁, hsettles⟩ := step_complete hsha h hfresh
      cases hstep.symm.trans hstep₁
      exact (hsettles hsupported hkind hs).1
    · simp only [runs, Run.uuid, Option.isSome_iff_ne_none.mpr hfresh, if_true] at hstep
      cases hstep
  | killed given operations torn =>
    simp only [runs] at hstep
    split at hstep
    · cases hstep
    · obtain ⟨s₁, hstop, heq⟩ := Option.map_eq_some_iff.mp hstep
      cases heq
      exact hspared _ hstop

/-- The migration is done: the content at the target, nothing at the source, and the receipt says so. -/
structure Migrated (original : Tree) (s : Disk Digest) : Prop where
  target : s.target = some original
  source : s.source = none
  receipt : ∃ receipt, s.receipt = some receipt ∧ receipt.status = .migrated

omit [DecidableEq Digest] in
theorem Finished.migrated (h : Finished sha256 m original s) : Migrated original s := by
  obtain ⟨digest, -, hreceipt⟩ := h.backed.digest
  exact ⟨h.target, h.source, _, hreceipt, rfl⟩

/-- Nothing touches a migration that is done. -/
theorem Finished.stays (h : Finished sha256 m original s) (hreach : (runs m sha256).Reach s s') : s' = s := by
  refine hreach.invariant (P := (· = s)) rfl fun run s₁ a s₂ hs₁ _ hstep => ?_
  rw [hs₁] at hstep
  simp only [runs] at hstep
  split at hstep
  · cases hstep
  · cases run with
    | complete given =>
      cases hstep
      exact (keeps_finished given h).run.1
    | killed given operations torn =>
      obtain ⟨s₃, hstop, heq⟩ := Option.map_eq_some_iff.mp hstep
      cases heq
      exact (keeps_finished given h).stop hstop

theorem Finished.unchanged (h : Finished sha256 m original s) {later : RunInput} (hfresh : s.staged later.uuid = none)
    (hcustom : later.customPath = false) : (runs m sha256).step (.complete later) s = some (some .unchanged, s) := by
  obtain ⟨hstays, hresult⟩ := (keeps_finished later h).run
  rw [hcustom, if_neg Bool.false_ne_true] at hresult
  have hresult' : ((applyPluginStorageMigration m later).run (exec sha256) s).1 = .ok .unchanged := hresult
  have hstays' : ((applyPluginStorageMigration m later).run (exec sha256) s).2 = s := hstays
  simp only [runs, Run.uuid, hfresh, Option.isSome_none, Bool.false_eq_true, if_false, hresult', hstays']
  rfl

/-- Over every sequence of runs, any of them killed at any moment, the original content is whole at the
source, at the target or in the backup, and the target never holds a part of it.  Where the deaths are
spared, a run that may write finishes the migration, and then every run leaves it alone. -/
theorem interrupted_migration (sha256 : List UInt8 → Digest) (hsha : Function.Injective sha256) (m : Migration)
    (original : Tree) :
    (∀ s, (runs m sha256).Reach (initial original) s →
      (s.source = some original ∨ s.target = some original ∨ s.raw = some original) ∧
      (s.target = none ∨ s.target = some original)) ∧
    (original.supported = true → original.matchesKind m.kind = true →
      ∀ s, (runs m sha256).ReachUnder (Spared m sha256 original) (initial original) s →
        ∀ input, s.staged input.uuid = none → input.migrates s →
          ∃ result s', (runs m sha256).step (.complete input) s = some (some result, s') ∧ Migrated original s' ∧
            ((∃ finished, result = .migrated finished) ∨ Migrated original s ∧ result = .unchanged) ∧
            (∀ s'', (runs m sha256).Reach s' s'' → s'' = s') ∧
            ∀ later, s'.staged later.uuid = none → later.customPath = false →
              (runs m sha256).step (.complete later) s' = some (some .unchanged, s')) := by
  have hinitial : Phase sha256 m original (initial original) := .unprepared ⟨rfl, rfl, rfl, fun _ ↦ rfl⟩
  constructor
  · intro s hreach
    have hphase := hreach.invariant hinitial fun run s a s' h _ hstep ↦ step_phase hsha h hstep
    exact ⟨hphase.copy, hphase.target⟩
  · intro hsupported hkind s hreach input hfresh hmigrates
    have hboth := hreach.invariant (P := fun s ↦ Phase sha256 m original s ∧ Resumable original s)
      ⟨hinitial, fun _ ↦ rfl, .inr rfl⟩ fun run s a s' h hspared hstep ↦
        ⟨step_phase hsha h.1 hstep, step_resumable hsha hsupported hkind h.1 h.2 hspared hstep⟩
    obtain ⟨result, s', hstep, hsettles⟩ := step_complete hsha hboth.1 hfresh
    obtain ⟨hfinished, hresult⟩ := (hsettles hsupported hkind hboth.2).2 hmigrates
    refine ⟨result, s', hstep, hfinished.migrated, ?_, fun s'' ↦ hfinished.stays, fun later ↦ hfinished.unchanged⟩
    rcases hresult with ⟨finished, heq⟩ | ⟨hdone, heq⟩
    · exact .inl ⟨finished, Except.ok.inj heq⟩
    · exact .inr ⟨hdone.migrated, Except.ok.inj heq⟩

/-! ## Two deaths -/

section Deaths

/-- A digest without collisions. -/
abbrev rawDigest : List UInt8 → List UInt8 := id

def library : Tree :=
  .dir (.cons ⟨['a'], by decide, by decide⟩ (.file [1]) (.cons ⟨['b'], by decide, by decide⟩ (.file [2]) .nil))

/-- What the removal of `library` leaves when it is killed after its first file. -/
def halfLibrary : Tree := .dir (.cons ⟨['b'], by decide, by decide⟩ (.file [2]) .nil)

def libraryMigration : Migration := ⟨.directory, ['s'], ['t'], false⟩

def writableRun (uuid : Nat) : RunInput := ⟨false, false, false, uuid⟩

/-- The first run dies when it has published the library, and the next one retires the source. -/
theorem interrupted_migration_resumed :
    ∃ s, (runs libraryMigration rawDigest).Reach (initial library) s ∧
      (s.source = some library ∧ s.target = some library) ∧
      ∃ result s', (runs libraryMigration rawDigest).step (.complete (writableRun 1)) s = some (some result, s') ∧
        Migrated library s' := by
  have hdeath : ((runs libraryMigration rawDigest).runUnder (Spared libraryMigration rawDigest library)
      (initial library) [.killed (writableRun 0) 16 none]).any (fun s ↦ decide ((s.source = some library ∧
        s.target = some library) ∧ s.staged 1 = none ∧ s.receipt ≠ none)) = true := by
    decide +kernel
  obtain ⟨s, hrun, hs⟩ := (Option.any_eq_true _ _).mp hdeath
  obtain ⟨hboth, hfresh, hreceipt⟩ := of_decide_eq_true hs
  have hspared := runUnder_reach hrun
  have hmigrates : (writableRun 1).migrates s := ⟨rfl, rfl, fun h ↦ absurd h hreceipt⟩
  obtain ⟨result, s', hstep, hmigrated, -⟩ :=
    (interrupted_migration rawDigest Function.injective_id libraryMigration library).2 (by decide) (by decide) s
      hspared (writableRun 1) hfresh hmigrates
  exact ⟨s, hspared.mono fun _ _ _ ↦ trivial, hboth, result, s', hstep, hmigrated⟩

/-- A run that dies inside the removal of the source leaves half of it, and every later run takes that for a
change of the original. -/
theorem half_removed_source :
    ∃ s, (runs libraryMigration rawDigest).Reach (initial library) s ∧ s.source = some halfLibrary ∧
      s.target = some library ∧
      ∃ s', (runs libraryMigration rawDigest).step (.complete (writableRun 1)) s =
        some (some (.failed .sourceChanged), s') ∧ ¬Migrated library s' := by
  have hdeath : ((runs libraryMigration rawDigest).run (initial library)
      [.killed (writableRun 0) 16 (some halfLibrary)]).any (fun s ↦ decide (s.source = some halfLibrary ∧
        s.target = some library) && ((runs libraryMigration rawDigest).step (.complete (writableRun 1)) s).any
          fun r ↦ decide (r.1 = some (.failed .sourceChanged) ∧ r.2.source ≠ none)) = true := by
    decide +kernel
  obtain ⟨s, hrun, hs⟩ := (Option.any_eq_true _ _).mp hdeath
  obtain ⟨hboth, hlater⟩ := Bool.and_eq_true_iff.mp hs
  obtain ⟨⟨result, s'⟩, hstep, hfailed⟩ := (Option.any_eq_true _ _).mp hlater
  obtain ⟨rfl, hsource⟩ := of_decide_eq_true hfailed
  have hboth := of_decide_eq_true hboth
  exact ⟨s, run_reach hrun, hboth.1, hboth.2, s', hstep, fun h ↦ hsource h.source⟩

end Deaths

end RabiRoute.PluginStorage
