import RabiRoute.PluginRuntimeHost.OutcomeEffects

/-!
# The effects of the events
-/

namespace RabiRoute.PluginRuntimeHost

open Relation (ReflTransGen)

/-- A record that a read takes from a cold file is what the file still holds, unless its key is pending. -/
def Current : Event → Archive → Prop
  | .resumeRead r true, a => ∀ key record, a.reads r = .cold key (some (.stored record)) → record.key = key →
      a.pending key = none → a.files key = .stored record
  | _, _ => True

section

variable {hotLimit : Nat} {fresh : Prop} {a a' : Archive}

theorem stepEntry_effect (h : Sound a) {e : EntryId} {step : Entry → File → Option Entry}
    (hidle : ∀ entry file, entry.work = none ∧ entry.loading = none ∧ entry.fileOwner = none → step entry file = none)
    (hok : ∀ entry entry' file history, EntryOk file history entry → step entry file = some entry' →
      StepOk file history entry' ∧ entry'.key = entry.key ∧ entry'.record.current = entry.record.current ∧
        entry'.record.stamp = entry.record.stamp)
    (hstep : a.stepEntry hotLimit e step = some a') : Effect hotLimit fresh a a' := by
  obtain ⟨entry, hentry, hrest⟩ := Option.bind_eq_some_iff.mp hstep
  obtain ⟨entry', hentry', rfl⟩ := Option.map_eq_some_iff.mp hrest
  obtain hpending | hnone := h.busy e entry hentry
  · obtain ⟨old, hold, -, hentryOk⟩ := h.pending entry.key e hpending
    obtain rfl := Option.some.inj (hentry.symm.trans hold)
    obtain ⟨hstepOk, hkey, hcurrent, hstamp⟩ := hok entry entry' _ _ hentryOk hentry'
    have hstep : EntryStep a e entry entry' := ⟨hentry, hpending, hentryOk.unconfirmed, hkey, hcurrent, hstamp⟩
    unfold Archive.put
    obtain hstays | hwritten := hstepOk
    · rw [if_neg (by rw [hstays.unconfirmed]; exact Bool.false_ne_true)]
      refine .entries _ fun e' => ?_
      by_cases he : e' = e
      · subst he
        exact .inr ⟨entry, entry', hstep, Function.update_self .., hstays⟩
      · exact .inl (Function.update_of_ne he _ _)
    · rw [if_pos hwritten.confirmed, hkey]
      exact .confirm e entry entry' hstep hwritten
  · rw [hidle entry _ hnone] at hentry'
    cases hentry'

theorem landEntry_effect (h : Sound a) {e : EntryId} (hstep : a.landEntry hotLimit e = some a') :
    Effect hotLimit fresh a a' := by
  obtain ⟨entry, hentry, hrest⟩ := Option.bind_eq_some_iff.mp hstep
  obtain ⟨⟨entry', record⟩, hland, rfl⟩ := Option.map_eq_some_iff.mp hrest
  obtain hpending | hnone := h.busy e entry hentry
  · obtain ⟨old, hold, -, hentryOk⟩ := h.pending entry.key e hpending
    obtain rfl := Option.some.inj (hentry.symm.trans hold)
    obtain ⟨hok, hsucceeds, hrecord, hkey⟩ := land_ok hentryOk hland
    have hstep : EntryStep a e entry entry' :=
      ⟨hentry, hpending, hentryOk.unconfirmed, hkey, congrArg _ hrecord, congrArg _ hrecord⟩
    unfold Archive.put
    dsimp only
    rw [if_neg (by rw [hok.unconfirmed]; exact Bool.false_ne_true)]
    exact .land e entry entry' record hstep hok hsucceeds
  · unfold Entry.land at hland
    rw [hnone.1] at hland
    cases hland

theorem observe_effect (h : Sound a) (key : OutcomeKey) (firstFailure : Fields) (receipt : Receipt) :
    a.observe key firstFailure receipt = a ∨ Effect hotLimit fresh a (a.observe key firstFailure receipt) := by
  unfold Archive.observe
  by_cases huncertain : receipt.uncertaintyObserved
  · rw [if_pos huncertain]
    right
    dsimp only
    cases hpending : a.pending key with
    | some e =>
      obtain ⟨entry, hentry, rfl, -⟩ := h.pending key e hpending
      dsimp only
      rw [hentry]
      exact .again e entry (metadata receipt) hentry hpending
    | none =>
      have hopened : Effect hotLimit fresh a (a.openEntry key (a.hot.get? key) firstFailure (metadata receipt)) :=
        .opened key firstFailure (metadata receipt) hpending
      dsimp only
      cases hhot : a.hot.get? key with
      | none =>
        rw [hhot] at hopened
        exact hopened
      | some confirmed =>
        rw [hhot] at hopened
        dsimp only
        by_cases hsame : semantic confirmed.current = semantic (metadata receipt)
        · rw [if_pos hsame]
          exact .repeated key confirmed (metadata receipt) hpending hhot hsame
        · rw [if_neg hsame]
          exact hopened
  · rw [if_neg huncertain]
    exact .inl rfl

/-- Entries that only begin to write or to load. -/
theorem entries_effect (h : Sound a) {entries : EntryId → Option Entry} (change : Entry → Entry)
    (hchange : ∀ entry file history, EntryOk file history entry → EntryOk file history (change entry))
    (hsame : ∀ entry : Entry, entry.SameRecord (change entry))
    (hentries : ∀ e, entries e = a.entries e ∨
      ∃ entry, a.entries e = some entry ∧ a.pending entry.key = some e ∧ entries e = some (change entry)) :
    Effect hotLimit fresh a { a with entries := entries } := by
  refine .entries entries fun e => (hentries e).imp_right ?_
  rintro ⟨entry, hentry, hpending, hnew⟩
  obtain ⟨old, hold, -, hok⟩ := h.pending entry.key e hpending
  obtain rfl := Option.some.inj (hentry.symm.trans hold)
  obtain ⟨hrecord, hkey⟩ := hsame entry
  exact ⟨entry, change entry,
    ⟨hentry, hpending, hok.unconfirmed, hkey, congrArg _ hrecord, congrArg _ hrecord⟩, hnew, hchange _ _ _ hok⟩

theorem flush_effect (h : Sound a) (identity : Option PluginIdentity) : Effect hotLimit fresh a (a.flush identity) := by
  refine entries_effect h Entry.write (fun _ _ _ hok => hok.write) (fun _ => sameRecord_write) fun e => ?_
  cases hentry : a.entries e with
  | none => exact .inl rfl
  | some entry =>
    dsimp only [Option.map_some]
    by_cases hscope : a.pending entry.key = some e ∧
        identity.all (fun identity => decide (identity = entry.record.identity)) = true
    · rw [if_pos hscope]
      exact .inr ⟨entry, rfl, hscope.1, rfl⟩
    · rw [if_neg hscope]
      exact .inl rfl

theorem read_effects (h : Sound a) {r : ReadId} (hidle : a.reads r = .idle) (key : OutcomeKey) :
    ReflTransGen (Effect hotLimit fresh) a (a.read r key) := by
  unfold Archive.read
  cases hpending : a.pending key with
  | none =>
    dsimp only
    cases hhot : a.hot.get? key with
    | none => exact .single (.misses r key hidle)
    | some hot => exact .single (.hits r key hot hidle hpending hhot)
  | some e =>
    obtain ⟨entry, hentry, rfl, -⟩ := h.pending key e hpending
    have hjoined : Effect hotLimit fresh a (a.setRead r (.joining entry.key e)) := .joins r _ e hidle hpending
    refine ReflTransGen.trans (.single hjoined) (.single ?_)
    refine entries_effect (hjoined.sound h) Entry.loadFirst (fun _ _ _ hok => hok.loadFirst)
      (fun _ => sameRecord_loadFirst) fun e' => ?_
    by_cases he : e' = e
    · subst he
      rw [hentry]
      exact .inr ⟨entry, hentry, hpending, Function.update_self ..⟩
    · exact .inl (Function.update_of_ne he _ _)

theorem resumeRead_effect {r : ReadId} {ok : Bool} (hstep : a.resumeRead hotLimit r ok = some a')
    (hfresh : fresh → Current (.resumeRead r ok) a) : Effect hotLimit fresh a a' := by
  unfold Archive.resumeRead at hstep
  cases hread : a.reads r with
  | idle =>
    rw [hread] at hstep
    cases hstep
  | ended key outcome =>
    rw [hread] at hstep
    cases hstep
  | joining key e =>
    rw [hread] at hstep
    dsimp only at hstep
    cases ok with
    | false =>
      cases hstep
      exact .fails r key (.inl ⟨e, hread⟩)
    | true =>
      obtain ⟨entry, hentry, hrest⟩ := Option.bind_eq_some_iff.mp hstep
      cases hloaded : entry.loaded with
      | false =>
        rw [hloaded] at hrest
        cases hrest
      | true =>
        rw [hloaded] at hrest
        cases hrest
        exact .finds r key e entry _ hread hentry
  | cold key sampled =>
    rw [hread] at hstep
    dsimp only at hstep
    cases ok with
    | false =>
      cases hstep
      exact .fails r key (.inr ⟨sampled, hread⟩)
    | true =>
      obtain ⟨found, rfl, rfl⟩ := Option.map_eq_some_iff.mp hstep
      cases found with
      | absent => exact .lacks r key hread
      | unreadable => exact .fails r key (.inr ⟨_, hread⟩)
      | stored record =>
        dsimp only
        split
        · exact .fails r key (.inr ⟨_, hread⟩)
        · next hmatches =>
            refine .warms r key record hread fun hisFresh hpending => ?_
            have hkey : record.key = key := by
              rw [not_or, not_or, not_not, not_not, not_not] at hmatches
              exact hmatches.2.2
            exact hfresh hisFresh key record hread hkey hpending

theorem step_effects (h : Sound a) {event : Event} (hstep : a.step hotLimit event = some a')
    (hfresh : fresh → Current event a) : ReflTransGen (Effect hotLimit fresh) a a' := by
  cases event with
  | observe key firstFailure receipt =>
    cases hstep
    obtain hsame | heffect := observe_effect h key firstFailure receipt
    · rw [hsame]
    · exact .single heffect
  | flush identity =>
    cases hstep
    exact .single (flush_effect h identity)
  | resume e ok =>
    replace hstep : a.stepEntry hotLimit e (·.resume · ok) = some a' := hstep
    refine .single (stepEntry_effect h (fun entry file hidle => ?_) (fun _ _ _ _ hok hresume => ?_) hstep)
    · show entry.resume file ok = none
      unfold Entry.resume
      rw [hidle.1]
    · obtain ⟨hnext, hrecord, hkey⟩ := resume_ok hok hresume
      exact ⟨hnext, hkey, congrArg _ hrecord, congrArg _ hrecord⟩
  | land e => exact .single (landEntry_effect h hstep)
  | observeClose e =>
    replace hstep : a.stepEntry hotLimit e (fun entry _ => entry.observeClose) = some a' := hstep
    refine .single (stepEntry_effect h (fun entry file hidle => ?_) (fun _ _ _ _ hok hclose => ?_) hstep)
    · show entry.observeClose = none
      unfold Entry.observeClose
      rw [hidle.2.2]
      rfl
    · obtain ⟨hnext, hrecord, hkey⟩ := observeClose_ok hok hclose
      exact ⟨.inl hnext, hkey, congrArg _ hrecord, congrArg _ hrecord⟩
  | sampleFirst e =>
    replace hstep : a.stepEntry hotLimit e Entry.sampleFirst = some a' := hstep
    refine .single (stepEntry_effect h (fun entry file hidle => ?_) (fun _ _ _ _ hok hsample => ?_) hstep)
    · unfold Entry.sampleFirst
      rw [hidle.2.1]
    · obtain ⟨hnext, hrecord, hkey⟩ := sampleFirst_ok hok hsample
      exact ⟨.inl hnext, hkey, congrArg _ hrecord, congrArg _ hrecord⟩
  | resumeFirst e ok =>
    replace hstep : a.stepEntry hotLimit e (fun entry _ => entry.resumeFirst ok) = some a' := hstep
    refine .single (stepEntry_effect h (fun entry file hidle => ?_) (fun _ _ _ _ hok hresume => ?_) hstep)
    · show entry.resumeFirst ok = none
      unfold Entry.resumeFirst
      rw [hidle.2.1]
      rfl
    · obtain ⟨hnext, hsame⟩ := resumeFirst_ok hok hresume
      exact ⟨.inl hnext, hsame⟩
  | read r key =>
    unfold Archive.step at hstep
    dsimp only at hstep
    split at hstep
    · next hidle =>
        cases hstep
        exact read_effects h hidle key
    · cases hstep
  | sampleRead r =>
    unfold Archive.step Archive.sampleRead at hstep
    dsimp only at hstep
    split at hstep
    · next key hread =>
        cases hstep
        exact .single (.samples r key hread)
    · cases hstep
  | resumeRead r ok => exact .single (resumeRead_effect hstep hfresh)

end

end RabiRoute.PluginRuntimeHost
