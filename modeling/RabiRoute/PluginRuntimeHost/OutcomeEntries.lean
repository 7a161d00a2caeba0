import RabiRoute.PluginRuntimeHost.OutcomeArchive

/-!
# Pending outcomes

What a pending entry is to the file of its key: it is newer, and once it is loaded it has the first facts
of the file.
-/

namespace RabiRoute.PluginRuntimeHost

/-! ## Observations of one key -/

/-- No observation since has said anything else. -/
def Latest (history : History) (record : ArchivedOutcome) : Prop :=
  ∀ j, record.stamp < j → j ≤ history.count → semantic (history.observed j) = semantic record.current

/-- The record is the observation or a later one, or one that the observations up to it have repeated. -/
def Covers (history : History) (record : ArchivedOutcome) (i : Nat) : Prop :=
  ∀ j, record.stamp < j → j ≤ i → semantic (history.observed j) = semantic record.current

theorem Latest.covers {history : History} {record : ArchivedOutcome} {i : Nat} (h : Latest history record)
    (hi : i ≤ history.count) : Covers history record i := fun j hj hji => h j hj (le_trans hji hi)

/-- A later record covers what an earlier one does. -/
theorem Covers.newer {history : History} {record record' : ArchivedOutcome} {i : Nat} (h : Covers history record i)
    (hobserved : history.observed record'.stamp = record'.current)
    (hnewer : record.stamp < record'.stamp ∨ record = record') : Covers history record' i := by
  obtain hlt | rfl := hnewer
  · intro j hj hji
    -- the later record repeats the earlier one
    have hrepeats := h record'.stamp hlt (by omega)
    rw [hobserved] at hrepeats
    rw [hrepeats]
    exact h j (by omega) hji
  · exact h

theorem observed_add {history : History} {current : Receipt} {e : Option EntryId} {j : Nat} (hj : j ≤ history.count) :
    (history.add current e).observed j = history.observed j := if_neg (by omega)

theorem Covers.add {history : History} {record : ArchivedOutcome} {i : Nat} (h : Covers history record i)
    (hi : i ≤ history.count) (current : Receipt) (e : Option EntryId) : Covers (history.add current e) record i := by
  intro j hj hji
  rw [observed_add (le_trans hji hi)]
  exact h j hj hji

/-- An observation that repeats the record. -/
theorem Latest.add {history : History} {record : ArchivedOutcome} {current : Receipt} (h : Latest history record)
    (hcurrent : semantic current = semantic record.current) (e : Option EntryId) :
    Latest (history.add current e) record := by
  intro j hj hcount
  by_cases hnew : j = history.count + 1
  · rw [show (history.add current e).observed j = current from if_pos hnew, hcurrent]
  · have hle : j ≤ history.count := by
      have hcount : j ≤ history.count + 1 := hcount
      omega
    rw [observed_add hle]
    exact h j hj hle

/-! ## Entries -/

def SameFirsts (record record' : ArchivedOutcome) : Prop :=
  record.firstFailure = record'.firstFailure ∧ record.firstObservation = record'.firstObservation

theorem SameFirsts.trans {a b c : ArchivedOutcome} (h : SameFirsts a b) (h' : SameFirsts b c) : SameFirsts a c :=
  ⟨h.1.trans h'.1, h.2.trans h'.2⟩

theorem SameFirsts.symm {a b : ArchivedOutcome} (h : SameFirsts a b) : SameFirsts b a := ⟨h.1.symm, h.2.symm⟩

/-- The file of a write: its record is newer than the file, until it is there. -/
structure OwnerOk (file : File) (history : History) (record : ArchivedOutcome) (version : Nat) (owner : FileOwner) :
    Prop where
  firsts : SameFirsts owner.record record
  observed : history.observed owner.record.stamp = owner.record.current
  older : ∀ d, file = .stored d → d.stamp < owner.record.stamp ∨ d = owner.record
  newest : owner.record.stamp < record.stamp ∨ owner.record = record
  known : owner.version ≤ version
  same : owner.version = version → owner.record = record
  renamed : owner.renamed = true → file = .stored owner.record

/-- What an entry has reached at each phase. -/
def PhaseOk (file : File) (loaded : Bool) (fileOwner : Option FileOwner) : Phase → Prop
  | .openFile | .directory => loaded = true
  | .rename landed => landed = true → ∀ owner, fileOwner = some owner → file = .stored owner.record
  | .readback => ∀ owner, fileOwner = some owner → owner.renamed = true
  | _ => True

structure EntryOk (file : File) (history : History) (entry : Entry) : Prop where
  unconfirmed : entry.confirmed = false
  ahead : entry.writtenVersion < entry.version
  semantic : entry.semantic = semantic entry.record.current
  stamp : entry.record.stamp ≤ history.count
  observed : history.observed entry.record.stamp = entry.record.current
  latest : Latest history entry.record
  older : ∀ d, file = .stored d → d.stamp < entry.record.stamp ∨ entry.loaded = true ∧ d = entry.record
  firsts : entry.loaded = true → ∀ d, file = .stored d → SameFirsts d entry.record
  loading : entry.loading ≠ none → entry.loaded = false
  sampled : ∀ sampled, entry.loading = some (some sampled) → sampled = file
  owned : ∀ owner, entry.fileOwner = some owner → entry.loaded = true
  owner : ∀ owner, entry.fileOwner = some owner → OwnerOk file history entry.record entry.version owner
  phase : ∀ phase, entry.work = some phase → PhaseOk file entry.loaded entry.fileOwner phase

/-- An entry that got confirmed is what the file holds. -/
structure Written (file : File) (history : History) (entry : Entry) : Prop where
  confirmed : entry.confirmed = true
  file : file = .stored entry.record
  latest : Latest history entry.record
  idle : entry.work = none ∧ entry.loading = none ∧ entry.fileOwner = none

/-- A step leaves the entry pending or confirms it. -/
def StepOk (file : File) (history : History) (entry : Entry) : Prop :=
  EntryOk file history entry ∨ Written file history entry

section

variable {file : File} {history : History} {entry entry' : Entry}

/-- Only where the write of the entry is has changed. -/
theorem EntryOk.atPhase (h : EntryOk file history entry) {phase : Phase}
    (hphase : PhaseOk file entry.loaded entry.fileOwner phase) :
    EntryOk file history { entry with work := some phase } :=
  { h with phase := fun _ heq => Option.some.inj heq ▸ hphase }

theorem EntryOk.fail (h : EntryOk file history entry) : EntryOk file history entry.fail :=
  { h with phase := nofun }

theorem EntryOk.write (h : EntryOk file history entry) : EntryOk file history entry.write := by
  unfold Entry.write
  split
  · exact h.atPhase trivial
  · exact h

theorem EntryOk.loadFirst (h : EntryOk file history entry) : EntryOk file history entry.loadFirst := by
  unfold Entry.loadFirst
  by_cases hnone : (entry.loaded || entry.loading.isSome) = true
  · rw [if_pos hnone]
    exact h
  · rw [if_neg hnone]
    have hloaded : entry.loaded = false := by
      rw [Bool.not_eq_true, Bool.or_eq_false_iff] at hnone
      exact hnone.1
    exact { h with loading := fun _ => hloaded, sampled := fun _ heq => by cases heq }

/-- The file of the write changes, but not what it holds. -/
theorem EntryOk.withOwner (h : EntryOk file history entry) {owner : FileOwner} {phase : Phase}
    (hloaded : entry.loaded = true) (howner : OwnerOk file history entry.record entry.version owner)
    (hphase : PhaseOk file entry.loaded (some owner) phase) :
    EntryOk file history { entry with fileOwner := some owner, work := some phase } :=
  { h with
    owned := fun _ _ => hloaded
    owner := fun _ heq => Option.some.inj heq ▸ howner
    phase := fun _ heq => Option.some.inj heq ▸ hphase }

theorem EntryOk.closeFile (h : EntryOk file history entry) {owner : FileOwner} (hloaded : entry.loaded = true) (howner :
    OwnerOk file history entry.record entry.version owner) : EntryOk file history (entry.closeFile owner) := by
  unfold Entry.closeFile
  split
  · exact h.withOwner hloaded howner trivial
  · exact h.withOwner hloaded howner trivial

theorem EntryOk.proceed (h : EntryOk file history entry) (hloaded : entry.loaded = true) :
    EntryOk file history entry.proceed := by
  unfold Entry.proceed
  rw [if_pos h.ahead]
  split
  · exact h.atPhase hloaded
  · next owner howner => exact h.closeFile hloaded (h.owner owner howner)

theorem EntryOk.publish (h : EntryOk file history entry) {owner : FileOwner} (howner : entry.fileOwner = some owner) :
    EntryOk file history (entry.publish owner) := by
  unfold Entry.publish
  refine h.atPhase ?_
  split
  · trivial
  · split
    · intro hlanded
      cases hlanded
    · next hrenamed =>
      intro owner' howner'
      rw [howner] at howner'
      cases howner'
      simpa using hrenamed

/-- The step is not about what is archived. -/
def Entry.SameRecord (entry entry' : Entry) : Prop := entry'.record = entry.record ∧ entry'.key = entry.key

theorem sameRecord_write : entry.SameRecord entry.write := by
  unfold Entry.write
  split
  · exact ⟨rfl, rfl⟩
  · exact ⟨rfl, rfl⟩

theorem sameRecord_loadFirst : entry.SameRecord entry.loadFirst := by
  unfold Entry.loadFirst
  split
  · exact ⟨rfl, rfl⟩
  · exact ⟨rfl, rfl⟩

theorem sameRecord_proceed : entry.SameRecord entry.proceed := by
  unfold Entry.proceed
  split
  · split
    · exact ⟨rfl, rfl⟩
    · exact ⟨rfl, rfl⟩
  · exact ⟨rfl, rfl⟩

/-- What was read back is what the file holds, and the write goes on or is done. -/
theorem EntryOk.readback (h : EntryOk file history entry) (hwork : entry.work = some .readback) {owner : FileOwner}
    (howner : entry.fileOwner = some owner) :
    StepOk file history { entry with writtenVersion := owner.version, fileOwner := none }.proceed := by
  have hok := h.owner owner howner
  have hloaded := h.owned owner howner
  have hfile := hok.renamed (h.phase _ hwork owner howner)
  obtain hbehind | hdone := lt_or_eq_of_le hok.known
  · have hphase (phase : Phase) (hphase : entry.work = some phase) : PhaseOk file entry.loaded none phase := by
      obtain rfl := Option.some.inj (hwork.symm.trans hphase)
      nofun
    have hnext : EntryOk file history { entry with writtenVersion := owner.version, fileOwner := none } :=
      { h with ahead := hbehind, owned := nofun, owner := nofun, phase := hphase }
    exact .inl (hnext.proceed hloaded)
  · right
    unfold Entry.proceed
    rw [if_neg (by rw [hdone]; exact lt_irrefl _)]
    rw [hok.same hdone] at hfile
    refine ⟨rfl, hfile, h.latest, rfl, ?_, rfl⟩
    by_contra hloading
    rw [h.loading hloading] at hloaded
    cases hloaded

theorem resume_ok (h : EntryOk file history entry) {ok : Bool} (hstep : entry.resume file ok = some entry') :
    StepOk file history entry' ∧ entry.SameRecord entry' := by
  unfold Entry.resume at hstep
  cases hwork : entry.work with
  | none =>
    rw [hwork] at hstep
    cases hstep
  | some phase =>
    rw [hwork] at hstep
    cases phase with
    | started =>
      cases hstep
      exact ⟨.inl (h.loadFirst.atPhase trivial), sameRecord_loadFirst⟩
    | firsts =>
      cases ok with
      | false =>
        cases hstep
        exact ⟨.inl h.fail, rfl, rfl⟩
      | true =>
        cases hloaded : entry.loaded with
        | false =>
          rw [hloaded] at hstep
          cases hstep
        | true =>
          rw [hloaded] at hstep
          cases hstep
          exact ⟨.inl (h.proceed hloaded), sameRecord_proceed⟩
    | directory =>
      cases ok with
      | false =>
        cases hstep
        exact ⟨.inl h.fail, rfl, rfl⟩
      | true =>
        cases hstep
        exact ⟨.inl (h.atPhase (h.phase .directory hwork)), rfl, rfl⟩
    | openFile =>
      cases ok with
      | false =>
        cases hstep
        exact ⟨.inl h.fail, rfl, rfl⟩
      | true =>
        cases hstep
        have hloaded : entry.loaded = true := h.phase .openFile hwork
        refine ⟨.inl (h.withOwner hloaded ?_ trivial), rfl, rfl⟩
        exact ⟨⟨rfl, rfl⟩, h.observed, fun d hd => (h.older d hd).imp_right And.right, .inr rfl, le_rfl,
          fun _ => rfl, nofun⟩
    | writeFile =>
      obtain ⟨owner, howner, rfl⟩ := Option.map_eq_some_iff.mp hstep
      cases ok with
      | false => exact ⟨.inl (h.closeFile (h.owned owner howner) (h.owner owner howner)), rfl, rfl⟩
      | true => exact ⟨.inl (h.atPhase trivial), rfl, rfl⟩
    | sync =>
      obtain ⟨owner, howner, rfl⟩ := Option.map_eq_some_iff.mp hstep
      have hok := h.owner owner howner
      refine ⟨.inl (h.closeFile (h.owned owner howner) ?_), rfl, rfl⟩
      exact ⟨hok.firsts, hok.observed, hok.older, hok.newest, hok.known, hok.same, hok.renamed⟩
    | close =>
      cases ok with
      | false =>
        cases hstep
        exact ⟨.inl h.fail, rfl, rfl⟩
      | true =>
        cases hstep
        exact ⟨.inl (h.atPhase trivial), rfl, rfl⟩
    | actualClose =>
      obtain ⟨owner, howner, hclosed⟩ := Option.bind_eq_some_iff.mp hstep
      cases hobserved : owner.closeObserved with
      | false =>
        rw [hobserved] at hclosed
        cases hclosed
      | true =>
        rw [hobserved] at hclosed
        cases hclosed
        exact ⟨.inl (h.publish howner), rfl, rfl⟩
    | unlink =>
      cases ok with
      | false =>
        cases hstep
        exact ⟨.inl h.fail, rfl, rfl⟩
      | true =>
        cases hstep
        exact ⟨.inl { h.fail with owned := nofun, owner := nofun, phase := nofun }, rfl, rfl⟩
    | rename landed =>
      obtain ⟨owner, howner, hrename⟩ := Option.bind_eq_some_iff.mp hstep
      cases ok with
      | false =>
        cases hrename
        exact ⟨.inl h.fail, rfl, rfl⟩
      | true =>
        cases landed with
        | false => cases hrename
        | true =>
          cases hrename
          have hok := h.owner owner howner
          have hfile : file = .stored owner.record := h.phase _ hwork rfl owner howner
          refine ⟨.inl (h.withOwner (h.owned owner howner) ?_ ?_), rfl, rfl⟩
          · exact ⟨hok.firsts, hok.observed, hok.older, hok.newest, hok.known, hok.same, fun _ => hfile⟩
          · rintro owner' ⟨⟩
            rfl
    | readback =>
      obtain ⟨owner, howner, rfl⟩ := Option.map_eq_some_iff.mp hstep
      by_cases hread : (ok && entry.isReadback owner file) = true
      · rw [if_pos hread]
        exact ⟨h.readback hwork howner, sameRecord_proceed⟩
      · rw [if_neg hread]
        exact ⟨.inl h.fail, rfl, rfl⟩

theorem EntryOk.owner_stamp (h : EntryOk file history entry) {owner : FileOwner} (howner : entry.fileOwner = some owner) :
    owner.record.stamp ≤ history.count := by
  have hle := h.stamp
  obtain hlt | heq := (h.owner owner howner).newest
  · omega
  · rw [heq]
    exact hle

/-- What a record is to the file that it is renamed over. -/
structure Succeeds (file : File) (history : History) (record : ArchivedOutcome) : Prop where
  observed : history.observed record.stamp = record.current
  stamp : record.stamp ≤ history.count
  firsts : ∀ d, file = .stored d → SameFirsts d record
  newer : ∀ d, file = .stored d → d.stamp < record.stamp ∨ d = record

theorem land_ok (h : EntryOk file history entry) {record : ArchivedOutcome} (hland : entry.land = some (entry', record)) :
    EntryOk (.stored record) history entry' ∧ Succeeds file history record ∧ entry.SameRecord entry' := by
  unfold Entry.land at hland
  split at hland
  · next landed hwork =>
      obtain ⟨owner, howner, heq⟩ := Option.map_eq_some_iff.mp hland
      cases heq
      have hok := h.owner owner howner
      have hloaded := h.owned owner howner
      refine ⟨?_, ⟨hok.observed, h.owner_stamp howner, fun d hd => ?_, hok.older⟩, rfl, rfl⟩
      · refine { h with older := ?_, firsts := ?_, sampled := ?_, owner := ?_, phase := ?_ }
        · rintro d ⟨⟩
          exact hok.newest.imp_right fun heq => ⟨hloaded, heq⟩
        · rintro - d ⟨⟩
          exact hok.firsts
        · -- nothing is loading any more
          intro sampled hsampled
          have hnone := h.loading (by rw [hsampled]; exact nofun)
          rw [hloaded] at hnone
          cases hnone
        · intro owner' howner'
          obtain rfl := Option.some.inj (howner.symm.trans howner')
          refine ⟨hok.firsts, hok.observed, ?_, hok.newest, hok.known, hok.same, fun _ => rfl⟩
          rintro d ⟨⟩
          exact .inr rfl
        · rintro phase ⟨⟩ - owner' howner'
          obtain rfl := Option.some.inj (howner.symm.trans howner')
          rfl
      · exact (h.firsts hloaded d hd).trans hok.firsts.symm
  · cases hland

theorem observeClose_ok (h : EntryOk file history entry) (hstep : entry.observeClose = some entry') :
    EntryOk file history entry' ∧ entry.SameRecord entry' := by
  obtain ⟨owner, howner, rfl⟩ := Option.map_eq_some_iff.mp hstep
  have hok := h.owner owner howner
  refine ⟨{ h with owned := fun _ _ => h.owned owner howner, owner := ?_, phase := fun phase hphase => ?_ }, rfl, rfl⟩
  · rintro owner' ⟨⟩
    exact ⟨hok.firsts, hok.observed, hok.older, hok.newest, hok.known, hok.same, hok.renamed⟩
  · have hold := h.phase phase hphase
    rw [howner] at hold
    cases phase with
    | rename landed =>
      rintro hlanded owner' ⟨⟩
      exact hold hlanded owner rfl
    | readback =>
      rintro owner' ⟨⟩
      exact hold owner rfl
    | openFile => exact hold
    | directory => exact hold
    | _ => trivial

theorem sampleFirst_ok (h : EntryOk file history entry) (hstep : entry.sampleFirst file = some entry') :
    EntryOk file history entry' ∧ entry.SameRecord entry' := by
  unfold Entry.sampleFirst at hstep
  split at hstep
  · next hloading =>
      cases hstep
      have hunloaded := h.loading (by rw [hloading]; exact nofun)
      refine ⟨{ h with loading := fun _ => hunloaded, sampled := ?_ }, rfl, rfl⟩
      rintro sampled ⟨⟩
      rfl
  · cases hstep

/-- The first facts of an entry that was not loaded. -/
theorem EntryOk.load (h : EntryOk file history entry) (hunloaded : entry.loaded = false) {record : ArchivedOutcome}
    (hcurrent : record.current = entry.record.current) (hstamp : record.stamp = entry.record.stamp)
    (hfirsts : ∀ d, file = .stored d → SameFirsts d record) :
    EntryOk file history { entry with record := record, loaded := true, loading := none } := by
  have hnone (owner : FileOwner) (howner : entry.fileOwner = some owner) : False := by
    have hloaded := h.owned owner howner
    rw [hunloaded] at hloaded
    cases hloaded
  refine { h with
    semantic := ?_, stamp := ?_, observed := ?_, latest := ?_, older := ?_, firsts := fun _ => hfirsts
    loading := (absurd rfl ·), sampled := nofun, owned := fun _ _ => rfl
    owner := fun owner howner => (hnone owner howner).elim, phase := ?_ }
  · dsimp only
    rw [hcurrent]
    exact h.semantic
  · dsimp only
    rw [hstamp]
    exact h.stamp
  · dsimp only
    rw [hstamp, hcurrent]
    exact h.observed
  · intro j hj hcount
    dsimp only at hj ⊢
    rw [hcurrent]
    exact h.latest j (by omega) hcount
  · intro d hd
    dsimp only
    rw [hstamp]
    exact (h.older d hd).imp_right fun hloaded => by
      rw [hunloaded] at hloaded
      cases hloaded.1
  · intro phase hphase
    have hold := h.phase phase hphase
    cases phase with
    | openFile => rfl
    | directory => rfl
    | _ => exact hold

theorem resumeFirst_ok (h : EntryOk file history entry) {ok : Bool} (hstep : entry.resumeFirst ok = some entry') :
    EntryOk file history entry' ∧ entry'.key = entry.key ∧ entry'.record.current = entry.record.current ∧
      entry'.record.stamp = entry.record.stamp := by
  obtain ⟨sampled, hloading, hrest⟩ := Option.bind_eq_some_iff.mp hstep
  have hunloaded := h.loading (by rw [hloading]; exact nofun)
  have hfailed : EntryOk file history { entry with loading := none } :=
    { h with loading := (absurd rfl ·), sampled := nofun }
  cases ok with
  | false =>
    cases hrest
    exact ⟨hfailed, rfl, rfl, rfl⟩
  | true =>
    obtain ⟨found, rfl, rfl⟩ := Option.map_eq_some_iff.mp hrest
    obtain rfl := h.sampled found hloading
    cases found with
    | absent => exact ⟨h.load hunloaded rfl rfl nofun, rfl, rfl, rfl⟩
    | unreadable => exact ⟨hfailed, rfl, rfl, rfl⟩
    | stored previous =>
      dsimp only
      split
      · exact ⟨hfailed, rfl, rfl, rfl⟩
      · refine ⟨h.load hunloaded rfl rfl ?_, rfl, rfl, rfl⟩
        rintro d ⟨⟩
        exact ⟨rfl, rfl⟩

/-! ## Observations -/

theorem observed_add_self (current : Receipt) (e : Option EntryId) :
    (history.add current e).observed (history.count + 1) = current := if_pos rfl

/-- The last observation is the latest. -/
theorem latest_add {record : ArchivedOutcome} (hstamp : record.stamp = history.count + 1) (current : Receipt)
    (e : Option EntryId) : Latest (history.add current e) record := by
  intro j hj hcount
  have hcount : j ≤ history.count + 1 := hcount
  omega

theorem observe_ok (h : EntryOk file history entry) (hfile : ∀ d, file = .stored d → d.stamp ≤ history.count)
    (current : Receipt) (e : Option EntryId) :
    EntryOk file (history.add current e) (entry.observe current (history.count + 1)) := by
  unfold Entry.observe
  split
  · next hsame =>
      refine { h with
        stamp := Nat.le_succ_of_le h.stamp, observed := ?_, latest := h.latest.add (hsame.symm.trans h.semantic) e
        owner := fun owner howner => ?_ }
      · rw [observed_add h.stamp]
        exact h.observed
      · have hok := h.owner owner howner
        refine { hok with observed := ?_ }
        rw [observed_add (h.owner_stamp howner)]
        exact hok.observed
  · refine { h with
      ahead := Nat.lt_succ_of_lt h.ahead, semantic := rfl, stamp := le_rfl, observed := observed_add_self current e
      latest := latest_add rfl current e, older := fun d hd => .inl (Nat.lt_succ_of_le (hfile d hd))
      owner := fun owner howner => ?_ }
    have hok := h.owner owner howner
    have hle := h.owner_stamp howner
    refine ⟨hok.firsts, ?_, hok.older, .inl (Nat.lt_succ_of_le hle), Nat.le_succ_of_le hok.known, fun hversion => ?_,
      hok.renamed⟩
    · rw [observed_add hle]
      exact hok.observed
    · have hknown := hok.known
      dsimp only at hversion
      omega

theorem observe_key (entry : Entry) (current : Receipt) (stamp : Nat) : (entry.observe current stamp).key = entry.key := by
  unfold Entry.observe
  split
  · rfl
  · rfl

theorem newEntry_ok {key : OutcomeKey} {confirmed : Option ArchivedOutcome} {firstFailure : Fields}
    (hfile : ∀ d, file = .stored d → d.stamp ≤ history.count)
    (hconfirmed : ∀ record, confirmed = some record → ∀ d, file = .stored d → SameFirsts d record)
    (current : Receipt) (e : Option EntryId) :
    EntryOk file (history.add current e) (newEntry key confirmed firstFailure current (history.count + 1)) where
  unconfirmed := rfl
  ahead := Nat.zero_lt_one
  semantic := rfl
  stamp := le_rfl
  observed := observed_add_self current e
  latest := latest_add rfl current e
  older d hd := .inl (Nat.lt_succ_of_le (hfile d hd))
  firsts hloaded d hd := by
    cases confirmed with
    | none => cases hloaded
    | some record => exact hconfirmed record rfl d hd
  loading h := absurd rfl h
  sampled _ h := nomatch h
  owned _ h := nomatch h
  owner _ h := nomatch h
  phase _ h := nomatch h

end

end RabiRoute.PluginRuntimeHost
