import RabiRoute.PluginRuntimeHost.OutcomeEntries

/-!
# What an event does to the archive

Every event is a few effects.  The invariants are proved of the effects.
-/

namespace RabiRoute.PluginRuntimeHost

open Collections

/-! ## The hot outcomes -/

section

variable {hotLimit : Nat} {hot : InsertionMap OutcomeKey ArchivedOutcome} {key j : OutcomeKey}
  {record found : ArchivedOutcome}

theorem get?_evict (h : (evict hotLimit hot).get? j = some found) : hot.get? j = some found :=
  InsertionMap.get?_eq_some.mpr (List.mem_of_mem_drop (InsertionMap.get?_eq_some.mp h))

theorem get?_evict_set (h : (evict hotLimit (hot.set key record)).get? j = some found) :
    j = key ∧ found = record ∨ j ≠ key ∧ hot.get? j = some found := by
  have hset := get?_evict h
  rw [InsertionMap.get?_set] at hset
  by_cases hj : j = key
  · rw [if_pos hj] at hset
    exact .inl ⟨hj, (Option.some.inj hset).symm⟩
  · rw [if_neg hj] at hset
    exact .inr ⟨hj, hset⟩

theorem get?_erase_set (j : OutcomeKey) : ((hot.erase key).set key record).get? j = (hot.set key record).get? j := by
  rw [InsertionMap.get?_set, InsertionMap.get?_set, InsertionMap.get?_erase]
  by_cases hj : j = key
  · rw [if_pos hj, if_pos hj]
  · rw [if_neg hj, if_neg hj, if_neg hj]

theorem get?_touch (h : hot.get? key = some record) (j : OutcomeKey) :
    ((hot.erase key).set key record).get? j = hot.get? j := by
  rw [get?_erase_set, InsertionMap.get?_set]
  by_cases hj : j = key
  · rw [if_pos hj, hj, h]
  · rw [if_neg hj]

end

/-! ## Effects -/

/-- A step of a pending entry that does not change its observation. -/
structure EntryStep (a : Archive) (e : EntryId) (entry entry' : Entry) : Prop where
  held : a.entries e = some entry
  pending : a.pending entry.key = some e
  unconfirmed : entry.confirmed = false
  key : entry'.key = entry.key
  current : entry'.record.current = entry.record.current
  stamp : entry'.record.stamp = entry.record.stamp

/-- With `fresh`, a record that is read from a cold file while its key is not pending is what the file still
holds. -/
inductive Effect (hotLimit : Nat) (fresh : Prop) (a : Archive) : Archive → Prop where
  | entries (entries : EntryId → Option Entry)
      (h : ∀ e, entries e = a.entries e ∨ ∃ entry entry', EntryStep a e entry entry' ∧ entries e = some entry' ∧
        EntryOk (a.files entry.key) (a.history entry.key) entry') :
      Effect hotLimit fresh a { a with entries := entries }
  | confirm (e : EntryId) (entry entry' : Entry) (h : EntryStep a e entry entry')
      (hwritten : Written (a.files entry.key) (a.history entry.key) entry') :
      Effect hotLimit fresh a { a with
        entries := Function.update a.entries e (some entry')
        hot := evict hotLimit ((a.hot.erase entry.key).set entry.key entry'.record)
        pending := Function.update a.pending entry.key none }
  | land (e : EntryId) (entry entry' : Entry) (record : ArchivedOutcome) (h : EntryStep a e entry entry')
      (hok : EntryOk (.stored record) (a.history entry.key) entry')
      (hsucceeds : Succeeds (a.files entry.key) (a.history entry.key) record) :
      Effect hotLimit fresh a { a with
        entries := Function.update a.entries e (some entry')
        files := Function.update a.files entry.key (.stored record) }
  | repeated (key : OutcomeKey) (confirmed : ArchivedOutcome) (current : Receipt) (hpending : a.pending key = none)
      (hhot : a.hot.get? key = some confirmed) (hsame : semantic confirmed.current = semantic current) :
      Effect hotLimit fresh a
        { a with history := Function.update a.history key ((a.history key).add current none) }
  | opened (key : OutcomeKey) (firstFailure : Fields) (current : Receipt) (hpending : a.pending key = none) :
      Effect hotLimit fresh a (a.openEntry key (a.hot.get? key) firstFailure current)
  | again (e : EntryId) (entry : Entry) (current : Receipt) (hentry : a.entries e = some entry)
      (hpending : a.pending entry.key = some e) :
      Effect hotLimit fresh a { a with
        entries := Function.update a.entries e
          (some (entry.observe current ((a.history entry.key).count + 1)).write)
        history := Function.update a.history entry.key ((a.history entry.key).add current (some e)) }
  | joins (r : ReadId) (key : OutcomeKey) (e : EntryId) (hidle : a.reads r = .idle) (hpending : a.pending key = some e) :
      Effect hotLimit fresh a (a.setRead r (.joining key e))
  | hits (r : ReadId) (key : OutcomeKey) (hot : ArchivedOutcome) (hidle : a.reads r = .idle)
      (hpending : a.pending key = none) (hhot : a.hot.get? key = some hot) :
      Effect hotLimit fresh a
        { a.setRead r (.ended key (.found true hot)) with hot := (a.hot.erase key).set key hot }
  | misses (r : ReadId) (key : OutcomeKey) (hidle : a.reads r = .idle) :
      Effect hotLimit fresh a (a.setRead r (.cold key none))
  | samples (r : ReadId) (key : OutcomeKey) (hread : a.reads r = .cold key none) :
      Effect hotLimit fresh a (a.setRead r (.cold key (some (a.files key))))
  | warms (r : ReadId) (key : OutcomeKey) (record : ArchivedOutcome)
      (hread : a.reads r = .cold key (some (.stored record)))
      (hfresh : fresh → a.pending key = none → a.files key = .stored record) :
      Effect hotLimit fresh a
        { a.setRead r (.ended key (.found true record)) with hot := evict hotLimit (a.hot.set key record) }
  | finds (r : ReadId) (key : OutcomeKey) (e : EntryId) (entry : Entry) (confirmed : Bool)
      (hread : a.reads r = .joining key e) (hentry : a.entries e = some entry) :
      Effect hotLimit fresh a (a.setRead r (.ended key (.found confirmed entry.record)))
  | lacks (r : ReadId) (key : OutcomeKey) (hread : a.reads r = .cold key (some .absent)) :
      Effect hotLimit fresh a (a.setRead r (.ended key .absent))
  | fails (r : ReadId) (key : OutcomeKey)
      (hread : (∃ e, a.reads r = .joining key e) ∨ ∃ sampled, a.reads r = .cold key sampled) :
      Effect hotLimit fresh a (a.setRead r (.ended key .failed))

/-! ## What holds in every run -/

structure Sound (a : Archive) : Prop where
  pending : ∀ key e, a.pending key = some e →
    ∃ entry, a.entries e = some entry ∧ entry.key = key ∧ EntryOk (a.files key) (a.history key) entry
  busy : ∀ e entry, a.entries e = some entry →
    a.pending entry.key = some e ∨ entry.work = none ∧ entry.loading = none ∧ entry.fileOwner = none
  new : ∀ e, a.next ≤ e → a.entries e = none
  files : ∀ key d, a.files key = .stored d → d.stamp ≤ (a.history key).count
  hot : ∀ key record, a.hot.get? key = some record → ∃ d, a.files key = .stored d ∧ SameFirsts d record
  cold : ∀ r key record, a.reads r = .cold key (some (.stored record)) →
    ∃ d, a.files key = .stored d ∧ SameFirsts d record

section

variable {hotLimit : Nat} {fresh : Prop} {a a' : Archive}

theorem Sound.setRead (h : Sound a) (r : ReadId) {call : ReadCall}
    (hcold : ∀ key record, call = .cold key (some (.stored record)) →
      ∃ d, a.files key = .stored d ∧ SameFirsts d record) : Sound (a.setRead r call) := by
  refine { h with cold := fun r' key record hread => ?_ }
  replace hread : Function.update a.reads r call r' = .cold key (some (.stored record)) := hread
  by_cases hr : r' = r
  · rw [hr, Function.update_self] at hread
    exact hcold key record hread
  · rw [Function.update_of_ne hr] at hread
    exact h.cold r' key record hread

theorem Sound.withHot (h : Sound a) {hot : InsertionMap OutcomeKey ArchivedOutcome}
    (hhot : ∀ key record, hot.get? key = some record → ∃ d, a.files key = .stored d ∧ SameFirsts d record) :
    Sound { a with hot := hot } :=
  { h with hot := hhot }

/-- No two keys share an entry. -/
theorem Sound.key_unique (h : Sound a) {key key' : OutcomeKey} {e : EntryId} (hkey : a.pending key = some e)
    (hkey' : a.pending key' = some e) : key = key' := by
  obtain ⟨entry, hentry, hk, -⟩ := h.pending key e hkey
  obtain ⟨entry', hentry', hk', -⟩ := h.pending key' e hkey'
  obtain rfl := Option.some.inj (hentry.symm.trans hentry')
  exact hk.symm.trans hk'

/-- Entries that change and stay pending. -/
theorem Sound.withEntries (h : Sound a) {entries : EntryId → Option Entry}
    (hentries : ∀ e, entries e = a.entries e ∨ ∃ entry entry', EntryStep a e entry entry' ∧ entries e = some entry' ∧
      EntryOk (a.files entry.key) (a.history entry.key) entry') : Sound { a with entries := entries } := by
  refine { h with pending := fun key e hpending => ?_, busy := fun e entry hentry => ?_, new := fun e he => ?_ }
  · obtain ⟨entry, hentry, rfl, hok⟩ := h.pending key e hpending
    obtain hsame | ⟨old, entry', hstep, hnew, hok'⟩ := hentries e
    · exact ⟨entry, hsame.trans hentry, rfl, hok⟩
    · obtain rfl := Option.some.inj (hentry.symm.trans hstep.held)
      exact ⟨entry', hnew, hstep.key, hok'⟩
  · have hentry : entries e = some entry := hentry
    obtain hsame | ⟨old, entry', hstep, hnew, -⟩ := hentries e
    · exact h.busy e entry (hsame.symm.trans hentry)
    · obtain rfl := Option.some.inj (hnew.symm.trans hentry)
      left
      rw [hstep.key]
      exact hstep.pending
  · obtain hsame | ⟨old, entry', hstep, -, -⟩ := hentries e
    · exact hsame.trans (h.new e he)
    · have hnone := h.new e he
      rw [hstep.held] at hnone
      cases hnone

theorem Sound.confirm (h : Sound a) {e : EntryId} {entry entry' : Entry} (hstep : EntryStep a e entry entry')
    (hwritten : Written (a.files entry.key) (a.history entry.key) entry') : Sound { a with
      entries := Function.update a.entries e (some entry')
      hot := evict hotLimit ((a.hot.erase entry.key).set entry.key entry'.record)
      pending := Function.update a.pending entry.key none } := by
  refine { h with
    pending := fun key e' hpending => ?_, busy := fun e' found hfound => ?_, new := fun e' he => ?_
    hot := fun key record hhot => ?_ }
  · replace hpending : Function.update a.pending entry.key none key = some e' := hpending
    have hkey : key ≠ entry.key := by
      rintro rfl
      rw [Function.update_self] at hpending
      cases hpending
    rw [Function.update_of_ne hkey] at hpending
    have hne : e' ≠ e := by
      rintro rfl
      exact hkey (h.key_unique hpending hstep.pending)
    obtain ⟨found, hfound, hrest⟩ := h.pending key e' hpending
    exact ⟨found, (Function.update_of_ne hne _ _).trans hfound, hrest⟩
  · replace hfound : Function.update a.entries e (some entry') e' = some found := hfound
    by_cases he : e' = e
    · rw [he, Function.update_self] at hfound
      obtain rfl := Option.some.inj hfound
      exact .inr hwritten.idle
    · rw [Function.update_of_ne he] at hfound
      refine (h.busy e' found hfound).imp_left fun hpending => ?_
      have hkey : found.key ≠ entry.key := by
        intro hkey
        rw [hkey, hstep.pending] at hpending
        exact he (Option.some.inj hpending).symm
      exact (Function.update_of_ne hkey _ _).trans hpending
  · have hne : e' ≠ e := by
      rintro rfl
      have hnone := h.new e' he
      rw [hstep.held] at hnone
      cases hnone
    exact (Function.update_of_ne hne _ _).trans (h.new e' he)
  · replace hhot : (evict hotLimit ((a.hot.erase entry.key).set entry.key entry'.record)).get? key = some record := hhot
    have hset := get?_evict hhot
    rw [get?_erase_set, InsertionMap.get?_set] at hset
    by_cases hkey : key = entry.key
    · rw [if_pos hkey] at hset
      obtain rfl := Option.some.inj hset
      rw [hkey]
      exact ⟨_, hwritten.file, rfl, rfl⟩
    · rw [if_neg hkey] at hset
      exact h.hot key record hset

theorem Sound.land (h : Sound a) {e : EntryId} {entry entry' : Entry} {record : ArchivedOutcome}
    (hstep : EntryStep a e entry entry') (hok : EntryOk (.stored record) (a.history entry.key) entry')
    (hsucceeds : Succeeds (a.files entry.key) (a.history entry.key) record) : Sound { a with
      entries := Function.update a.entries e (some entry')
      files := Function.update a.files entry.key (.stored record) } := by
  -- what was there had the first facts of what is there now
  have hfirsts (key : OutcomeKey) (found : ArchivedOutcome) (hfound : ∃ d, a.files key = .stored d ∧ SameFirsts d found) :
      ∃ d, Function.update a.files entry.key (.stored record) key = .stored d ∧ SameFirsts d found := by
    obtain ⟨d, hd, hsame⟩ := hfound
    by_cases hkey : key = entry.key
    · subst hkey
      exact ⟨record, Function.update_self .., (hsucceeds.firsts d hd).symm.trans hsame⟩
    · exact ⟨d, (Function.update_of_ne hkey _ _).trans hd, hsame⟩
  refine ⟨fun key e' hpending => ?_, fun e' found hfound => ?_, fun e' he => ?_, fun key d hd => ?_,
    fun key found hhot => hfirsts key found (h.hot key found hhot),
    fun r key found hcold => hfirsts key found (h.cold r key found hcold)⟩
  · by_cases hkey : key = entry.key
    · subst hkey
      obtain rfl := Option.some.inj (hstep.pending.symm.trans hpending)
      refine ⟨entry', Function.update_self .., hstep.key, ?_⟩
      dsimp only
      rw [Function.update_self]
      exact hok
    · have hne : e' ≠ e := by
        rintro rfl
        exact hkey (h.key_unique hpending hstep.pending)
      obtain ⟨found, hfound, hkeyFound, hfoundOk⟩ := h.pending key e' hpending
      refine ⟨found, (Function.update_of_ne hne _ _).trans hfound, hkeyFound, ?_⟩
      dsimp only
      rw [Function.update_of_ne hkey]
      exact hfoundOk
  · replace hfound : Function.update a.entries e (some entry') e' = some found := hfound
    by_cases he : e' = e
    · rw [he, Function.update_self] at hfound
      obtain rfl := Option.some.inj hfound
      left
      rw [hstep.key, he]
      exact hstep.pending
    · rw [Function.update_of_ne he] at hfound
      exact h.busy e' found hfound
  · have hne : e' ≠ e := by
      rintro rfl
      have hnone := h.new e' he
      rw [hstep.held] at hnone
      cases hnone
    exact (Function.update_of_ne hne _ _).trans (h.new e' he)
  · replace hd : Function.update a.files entry.key (.stored record) key = .stored d := hd
    by_cases hkey : key = entry.key
    · rw [hkey, Function.update_self] at hd
      cases hd
      rw [hkey]
      exact hsucceeds.stamp
    · rw [Function.update_of_ne hkey] at hd
      exact h.files key d hd

/-- One more observation of a key. -/
theorem Sound.stamps (h : Sound a) (key : OutcomeKey) (current : Receipt) (e : Option EntryId) (key' : OutcomeKey)
    (d : ArchivedOutcome) (hd : a.files key' = .stored d) :
    d.stamp ≤ (Function.update a.history key ((a.history key).add current e) key').count := by
  have hle := h.files key' d hd
  by_cases hkey : key' = key
  · rw [hkey, Function.update_self]
    rw [hkey] at hle
    exact Nat.le_succ_of_le hle
  · rw [Function.update_of_ne hkey]
    exact hle

theorem Sound.repeated (h : Sound a) {key : OutcomeKey} (hpending : a.pending key = none) (current : Receipt) :
    Sound { a with history := Function.update a.history key ((a.history key).add current none) } := by
  refine { h with pending := fun key' e hpending' => ?_, files := h.stamps key current none }
  have hkey : key' ≠ key := by
    rintro rfl
    replace hpending' : a.pending key' = some e := hpending'
    rw [hpending] at hpending'
    cases hpending'
  obtain ⟨entry, hentry, hkeyEntry, hok⟩ := h.pending key' e hpending'
  refine ⟨entry, hentry, hkeyEntry, ?_⟩
  dsimp only
  rw [Function.update_of_ne hkey]
  exact hok

theorem Sound.opened (h : Sound a) {key : OutcomeKey} (hpending : a.pending key = none) (firstFailure : Fields)
    (current : Receipt) : Sound (a.openEntry key (a.hot.get? key) firstFailure current) := by
  have hok : EntryOk (a.files key) ((a.history key).add current (some a.next))
      (newEntry key (a.hot.get? key) firstFailure current ((a.history key).count + 1)).write := by
    refine (newEntry_ok (h.files key) (fun record hrecord d hd => ?_) current (some a.next)).write
    obtain ⟨d', hd', hsame⟩ := h.hot key record hrecord
    obtain rfl := File.stored.inj (hd.symm.trans hd')
    exact hsame
  refine { h with
    pending := fun key' e hpending' => ?_, busy := fun e found hfound => ?_, new := fun e he => ?_
    files := h.stamps key current (some a.next) }
  · replace hpending' : Function.update a.pending key (some a.next) key' = some e := hpending'
    by_cases hkey : key' = key
    · subst hkey
      rw [Function.update_self] at hpending'
      obtain rfl := Option.some.inj hpending'
      refine ⟨_, Function.update_self .., rfl, ?_⟩
      show EntryOk _ (Function.update a.history key' _ key') _
      rw [Function.update_self]
      exact hok
    · rw [Function.update_of_ne hkey] at hpending'
      obtain ⟨entry, hentry, hkeyEntry, hentryOk⟩ := h.pending key' e hpending'
      have hne : e ≠ a.next := by
        rintro rfl
        rw [h.new _ le_rfl] at hentry
        cases hentry
      refine ⟨entry, (Function.update_of_ne hne _ _).trans hentry, hkeyEntry, ?_⟩
      show EntryOk _ (Function.update a.history key _ key') _
      rw [Function.update_of_ne hkey]
      exact hentryOk
  · replace hfound : Function.update a.entries a.next _ e = some found := hfound
    show Function.update a.pending key (some a.next) found.key = some e ∨ _
    by_cases he : e = a.next
    · rw [he, Function.update_self] at hfound
      obtain rfl := Option.some.inj hfound
      left
      rw [he]
      exact Function.update_self ..
    · rw [Function.update_of_ne he] at hfound
      refine (h.busy e found hfound).imp_left fun hbusy => ?_
      have hkey : found.key ≠ key := by
        intro hkey
        rw [hkey, hpending] at hbusy
        cases hbusy
      rw [Function.update_of_ne hkey]
      exact hbusy
  · replace he : a.next < e := he
    exact (Function.update_of_ne he.ne' _ _).trans (h.new e he.le)

theorem Sound.again (h : Sound a) {e : EntryId} {entry : Entry} (hentry : a.entries e = some entry)
    (hpending : a.pending entry.key = some e) (current : Receipt) : Sound { a with
      entries := Function.update a.entries e (some (entry.observe current ((a.history entry.key).count + 1)).write)
      history := Function.update a.history entry.key ((a.history entry.key).add current (some e)) } := by
  obtain ⟨old, hold, -, hok⟩ := h.pending entry.key e hpending
  obtain rfl := Option.some.inj (hentry.symm.trans hold)
  have hkeyNew : (entry.observe current ((a.history entry.key).count + 1)).write.key = entry.key :=
    sameRecord_write.2.trans (observe_key entry current _)
  refine { h with
    pending := fun key e' hpending' => ?_, busy := fun e' found hfound => ?_, new := fun e' he => ?_
    files := h.stamps entry.key current (some e) }
  · replace hpending' : a.pending key = some e' := hpending'
    by_cases hkey : key = entry.key
    · subst hkey
      obtain rfl := Option.some.inj (hpending.symm.trans hpending')
      refine ⟨_, Function.update_self .., hkeyNew, ?_⟩
      dsimp only
      rw [Function.update_self]
      exact (observe_ok hok (h.files entry.key) current (some e)).write
    · have hne : e' ≠ e := by
        rintro rfl
        exact hkey (h.key_unique hpending' hpending)
      obtain ⟨found, hfound, hrest⟩ := h.pending key e' hpending'
      refine ⟨found, (Function.update_of_ne hne _ _).trans hfound, ?_⟩
      dsimp only
      rw [Function.update_of_ne hkey]
      exact hrest
  · replace hfound : Function.update a.entries e _ e' = some found := hfound
    by_cases he : e' = e
    · rw [he, Function.update_self] at hfound
      obtain rfl := Option.some.inj hfound
      left
      rw [hkeyNew, he]
      exact hpending
    · rw [Function.update_of_ne he] at hfound
      exact h.busy e' found hfound
  · have hne : e' ≠ e := by
      rintro rfl
      have hnone := h.new e' he
      rw [hentry] at hnone
      cases hnone
    exact (Function.update_of_ne hne _ _).trans (h.new e' he)

theorem Effect.sound (h : Sound a) (heffect : Effect hotLimit fresh a a') : Sound a' := by
  cases heffect with
  | entries entries hentries => exact h.withEntries hentries
  | confirm e entry entry' hstep hwritten => exact h.confirm hstep hwritten
  | land e entry entry' record hstep hok hsucceeds => exact h.land hstep hok hsucceeds
  | repeated key confirmed current hpending hhot hsame => exact h.repeated hpending current
  | opened key firstFailure current hpending => exact h.opened hpending firstFailure current
  | again e entry current hentry hpending => exact h.again hentry hpending current
  | joins r key e hidle hpending => exact h.setRead r fun _ _ hcall => by cases hcall
  | hits r key hot hidle hpending hhot =>
    refine (h.setRead r fun _ _ hcall => by cases hcall).withHot fun key' record hrecord => ?_
    rw [get?_touch hhot] at hrecord
    exact h.hot key' record hrecord
  | misses r key hidle => exact h.setRead r fun _ _ hcall => by cases hcall
  | samples r key hread =>
    refine h.setRead r fun key' record hcall => ?_
    injection hcall with hkey hsampled
    rw [← hkey]
    exact ⟨record, Option.some.inj hsampled, rfl, rfl⟩
  | warms r key record hread hfresh =>
    refine (h.setRead r fun _ _ hcall => by cases hcall).withHot fun key' found hfound => ?_
    obtain ⟨rfl, rfl⟩ | ⟨-, hold⟩ := get?_evict_set hfound
    · exact h.cold r key' found hread
    · exact h.hot key' found hold
  | finds r key e entry confirmed hread hentry => exact h.setRead r fun _ _ hcall => by cases hcall
  | lacks r key hread => exact h.setRead r fun _ _ hcall => by cases hcall
  | fails r key hread => exact h.setRead r fun _ _ hcall => by cases hcall

end

end RabiRoute.PluginRuntimeHost
