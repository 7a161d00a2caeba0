import RabiRoute.PluginRuntimeHost.OutcomeEffects

/-!
# Observations that are answered for

First facts stay.  Where no read makes an old record hot, an observation whose promise is resolved is in the file.
-/

namespace RabiRoute.PluginRuntimeHost

open Collections

section

variable {hotLimit : Nat} {fresh : Prop} {a a' : Archive}

/-! ## First facts -/

/-- The first facts that the file has are those that it had. -/
def KeepsFirsts (a a' : Archive) : Prop :=
  ∀ key record, a.files key = .stored record → ∃ record', a'.files key = .stored record' ∧ SameFirsts record record'

theorem Effect.keepsFirsts (heffect : Effect hotLimit fresh a a') : KeepsFirsts a a' := by
  have hkept (hfiles : a'.files = a.files) : KeepsFirsts a a' := fun key record hrecord =>
    ⟨record, (congrFun hfiles key).trans hrecord, rfl, rfl⟩
  cases heffect with
  | land e entry entry' record hstep hok hsucceeds =>
    intro key old hold
    by_cases hkey : key = entry.key
    · subst hkey
      exact ⟨record, Function.update_self .., hsucceeds.firsts old hold⟩
    · exact ⟨old, (Function.update_of_ne hkey _ _).trans hold, rfl, rfl⟩
  | _ => exact hkept rfl

/-! ## Where no old record gets hot -/

/-- Where nothing is pending, the hot record is the file's, and the file has the latest observation. -/
structure Settled (a : Archive) : Prop where
  hot : ∀ key record, a.pending key = none → a.hot.get? key = some record → a.files key = .stored record
  latest : ∀ key d, a.pending key = none → a.files key = .stored d → Latest (a.history key) d

theorem Effect.settled (h : Settled a) (heffect : Effect hotLimit True a a') : Settled a' := by
  cases heffect with
  | entries entries hentries => exact ⟨h.hot, h.latest⟩
  | confirm e entry entry' hstep hwritten =>
    refine ⟨fun key record hpending hhot => ?_, fun key d hpending hd => ?_⟩
    · have hset := get?_evict hhot
      rw [get?_erase_set, InsertionMap.get?_set] at hset
      by_cases hkey : key = entry.key
      · rw [if_pos hkey] at hset
        obtain rfl := Option.some.inj hset
        rw [hkey]
        exact hwritten.file
      · rw [if_neg hkey] at hset
        replace hpending : Function.update a.pending entry.key none key = none := hpending
        rw [Function.update_of_ne hkey] at hpending
        exact h.hot key record hpending hset
    · by_cases hkey : key = entry.key
      · subst hkey
        obtain rfl := File.stored.inj (hd.symm.trans hwritten.file)
        exact hwritten.latest
      · replace hpending : Function.update a.pending entry.key none key = none := hpending
        rw [Function.update_of_ne hkey] at hpending
        exact h.latest key d hpending hd
  | land e entry entry' record hstep hok hsucceeds =>
    have hother (key : OutcomeKey) (hpending : a.pending key = none) : key ≠ entry.key := by
      rintro rfl
      rw [hstep.pending] at hpending
      cases hpending
    refine ⟨fun key found hpending hhot => ?_, fun key d hpending hd => ?_⟩
    · exact (Function.update_of_ne (hother key hpending) _ _).trans (h.hot key found hpending hhot)
    · replace hd : Function.update a.files entry.key (.stored record) key = .stored d := hd
      rw [Function.update_of_ne (hother key hpending)] at hd
      exact h.latest key d hpending hd
  | repeated key confirmed current hpending hhot hsame =>
    refine ⟨h.hot, fun key' d hpending' hd => ?_⟩
    show Latest (Function.update a.history key _ key') d
    by_cases hkey : key' = key
    · subst hkey
      rw [Function.update_self]
      obtain rfl := File.stored.inj (hd.symm.trans (h.hot key' confirmed hpending hhot))
      exact (h.latest key' d hpending hd).add hsame.symm none
    · rw [Function.update_of_ne hkey]
      exact h.latest key' d hpending' hd
  | opened key firstFailure current hpending =>
    have hother (key' : OutcomeKey) (hpending' : Function.update a.pending key (some a.next) key' = none) :
        key' ≠ key ∧ a.pending key' = none := by
      by_cases hkey : key' = key
      · rw [hkey, Function.update_self] at hpending'
        cases hpending'
      · rw [Function.update_of_ne hkey] at hpending'
        exact ⟨hkey, hpending'⟩
    refine ⟨fun key' record hpending' hhot => ?_, fun key' d hpending' hd => ?_⟩
    · exact h.hot key' record (hother key' hpending').2 hhot
    · obtain ⟨hkey, hnone⟩ := hother key' hpending'
      show Latest (Function.update a.history key _ key') d
      rw [Function.update_of_ne hkey]
      exact h.latest key' d hnone hd
  | again e entry current hentry hpending =>
    refine ⟨h.hot, fun key d hpending' hd => ?_⟩
    have hkey : key ≠ entry.key := by
      rintro rfl
      replace hpending' : a.pending entry.key = none := hpending'
      rw [hpending] at hpending'
      cases hpending'
    show Latest (Function.update a.history entry.key _ key) d
    rw [Function.update_of_ne hkey]
    exact h.latest key d hpending' hd
  | joins r key e hidle hpending => exact ⟨h.hot, h.latest⟩
  | hits r key hot hidle hpending hhot =>
    refine ⟨fun key' record hpending' hrecord => ?_, h.latest⟩
    replace hrecord : ((a.hot.erase key).set key hot).get? key' = some record := hrecord
    rw [get?_touch hhot] at hrecord
    exact h.hot key' record hpending' hrecord
  | misses r key hidle => exact ⟨h.hot, h.latest⟩
  | samples r key hread => exact ⟨h.hot, h.latest⟩
  | warms r key record hread hfresh =>
    refine ⟨fun key' found hpending hfound => ?_, h.latest⟩
    obtain ⟨rfl, rfl⟩ | ⟨-, hold⟩ := get?_evict_set hfound
    · exact hfresh trivial hpending
    · exact h.hot key' found hpending hold
  | finds r key e entry confirmed hread hentry => exact ⟨h.hot, h.latest⟩
  | lacks r key hread => exact ⟨h.hot, h.latest⟩
  | fails r key hread => exact ⟨h.hot, h.latest⟩

/-! ## Observations that are answered for -/

/-- The promise of the observation is resolved. -/
def Resolved (a : Archive) (key : OutcomeKey) (i : Nat) : Prop :=
  1 ≤ i ∧ i ≤ (a.history key).count ∧ ∀ e, (a.history key).promise i = some e →
    ∃ entry, a.entries e = some entry ∧ entry.confirmed = true

/-- The file holds the observation, or one that covers it. -/
def InFile (a : Archive) (key : OutcomeKey) (i : Nat) : Prop :=
  ∃ d, a.files key = .stored d ∧ Covers (a.history key) d i

structure Answered (a : Archive) : Prop where
  promised : ∀ key i e, (a.history key).promise i = some e → ∃ entry, a.entries e = some entry ∧ entry.key = key
  inFile : ∀ key i, Resolved a key i → InFile a key i

/-- What an observation of a pending entry makes of it. -/
theorem Sound.observed (h : Sound a) {e : EntryId} {entry : Entry} (hentry : a.entries e = some entry)
    (hpending : a.pending entry.key = some e) (current : Receipt) :
    (entry.observe current ((a.history entry.key).count + 1)).write.confirmed = false ∧ entry.confirmed = false := by
  obtain ⟨old, hold, -, hok⟩ := h.pending entry.key e hpending
  obtain rfl := Option.some.inj (hentry.symm.trans hold)
  exact ⟨(observe_ok hok (h.files entry.key) current (some e)).write.unconfirmed, hok.unconfirmed⟩

/-- An entry stays with its key, and once it is confirmed it stays as it is. -/
theorem Effect.keepsEntry (h : Sound a) (heffect : Effect hotLimit fresh a a') {e : EntryId} {entry : Entry}
    (hentry : a.entries e = some entry) :
    ∃ entry', a'.entries e = some entry' ∧ entry'.key = entry.key ∧ (entry.confirmed = true → entry' = entry) := by
  have hupdated {e' : EntryId} {old new : Entry} (hold : a.entries e' = some old) (hunconfirmed : old.confirmed = false)
      (hkey : new.key = old.key) : ∃ entry', Function.update a.entries e' (some new) e = some entry' ∧
        entry'.key = entry.key ∧ (entry.confirmed = true → entry' = entry) := by
    by_cases he : e = e'
    · subst he
      obtain rfl := Option.some.inj (hentry.symm.trans hold)
      refine ⟨new, Function.update_self .., hkey, fun hconfirmed => ?_⟩
      rw [hunconfirmed] at hconfirmed
      cases hconfirmed
    · exact ⟨entry, (Function.update_of_ne he _ _).trans hentry, rfl, fun _ => rfl⟩
  cases heffect with
  | entries entries hentries =>
    obtain hsame | ⟨old, entry', hstep, hnew, -⟩ := hentries e
    · exact ⟨entry, hsame.trans hentry, rfl, fun _ => rfl⟩
    · obtain rfl := Option.some.inj (hentry.symm.trans hstep.held)
      refine ⟨entry', hnew, hstep.key, fun hconfirmed => ?_⟩
      rw [hstep.unconfirmed] at hconfirmed
      cases hconfirmed
  | confirm e' old new hstep hwritten => exact hupdated hstep.held hstep.unconfirmed hstep.key
  | land e' old new record hstep hok hsucceeds => exact hupdated hstep.held hstep.unconfirmed hstep.key
  | again e' old current hold hpending =>
    refine hupdated hold (h.observed hold hpending current).2 ?_
    exact sameRecord_write.2.trans (observe_key old current _)
  | opened key firstFailure current hpending =>
    have hne : e ≠ a.next := by
      rintro rfl
      rw [h.new _ le_rfl] at hentry
      cases hentry
    exact ⟨entry, (Function.update_of_ne hne _ _).trans hentry, rfl, fun _ => rfl⟩
  | _ => exact ⟨entry, hentry, rfl, fun _ => rfl⟩

theorem Effect.promised (h : Sound a) (hanswered : Answered a) (heffect : Effect hotLimit fresh a a')
    (key : OutcomeKey) (i : Nat) (e : EntryId) (hpromise : (a'.history key).promise i = some e) :
    ∃ entry, a'.entries e = some entry ∧ entry.key = key := by
  have hold (hpromise : (a.history key).promise i = some e) : ∃ entry, a'.entries e = some entry ∧ entry.key = key := by
    obtain ⟨entry, hentry, hkey⟩ := hanswered.promised key i e hpromise
    obtain ⟨entry', hentry', hkey', -⟩ := heffect.keepsEntry h hentry
    exact ⟨entry', hentry', hkey'.trans hkey⟩
  -- the promise of the last observation is the only new one
  have hadded {key' : OutcomeKey} {current : Receipt} {e' : Option EntryId}
      (hpromise : (Function.update a.history key' ((a.history key').add current e') key).promise i = some e)
      (hnew : key = key' → e' = some e → ∃ entry, a'.entries e = some entry ∧ entry.key = key) :
      ∃ entry, a'.entries e = some entry ∧ entry.key = key := by
    by_cases hkey : key = key'
    · subst hkey
      rw [Function.update_self] at hpromise
      by_cases hi : i = (a.history key).count + 1
      · exact hnew rfl ((if_pos hi).symm.trans hpromise)
      · exact hold ((if_neg hi).symm.trans hpromise)
    · rw [Function.update_of_ne hkey] at hpromise
      exact hold hpromise
  cases heffect with
  | repeated key' confirmed current hpending hhot hsame => exact hadded hpromise nofun
  | opened key' firstFailure current hpending =>
    refine hadded hpromise fun hkey he => ?_
    cases he
    exact ⟨_, Function.update_self .., hkey.symm⟩
  | again e' entry current hentry hpending =>
    refine hadded hpromise fun hkey he => ?_
    cases he
    exact ⟨_, Function.update_self .., (sameRecord_write.2.trans (observe_key entry current _)).trans hkey.symm⟩
  | _ => exact hold hpromise

/-- An observation whose promise is resolved was so before, unless the step resolves it. -/
theorem resolved_before {key : OutcomeKey} {i : Nat} (h : Resolved a' key i) (hhistory : a'.history key = a.history key)
    (hentries : ∀ e entry, (a.history key).promise i = some e → a'.entries e = some entry → entry.confirmed = true →
      ∃ entry, a.entries e = some entry ∧ entry.confirmed = true) : Resolved a key i := by
  obtain ⟨hpos, hle, hpromise⟩ := h
  rw [hhistory] at hle hpromise
  refine ⟨hpos, hle, fun e he => ?_⟩
  obtain ⟨entry, hentry, hconfirmed⟩ := hpromise e he
  exact hentries e entry he hentry hconfirmed

/-- The same for an entry that is replaced by one that is not confirmed. -/
theorem confirmed_before {e e' : EntryId} {new entry : Entry} (hnew : new.confirmed = false)
    (hentry : Function.update a.entries e' (some new) e = some entry) (hconfirmed : entry.confirmed = true) :
    ∃ entry, a.entries e = some entry ∧ entry.confirmed = true := by
  by_cases he : e = e'
  · rw [he, Function.update_self] at hentry
    obtain rfl := Option.some.inj hentry
    rw [hnew] at hconfirmed
    cases hconfirmed
  · rw [Function.update_of_ne he] at hentry
    exact ⟨entry, hentry, hconfirmed⟩

/-- The step adds an observation of `key'`, and the files stay. -/
theorem inFile_added {key key' : OutcomeKey} {i : Nat} {current : Receipt} {e : Option EntryId}
    (hanswered : Answered a) (hresolved : Resolved a' key i) (hfiles : a'.files = a.files)
    (hhistory : a'.history = Function.update a.history key' ((a.history key').add current e))
    (hentries : ∀ e entry, (∃ entry, a.entries e = some entry) → a'.entries e = some entry → entry.confirmed = true →
      ∃ entry, a.entries e = some entry ∧ entry.confirmed = true)
    (hlast : key = key' → i = (a.history key).count + 1 → InFile a' key i) : InFile a' key i := by
  have hbefore (e : EntryId) (entry : Entry) (he : (a.history key).promise i = some e) (hentry : a'.entries e = some entry)
      (hconfirmed : entry.confirmed = true) : ∃ entry, a.entries e = some entry ∧ entry.confirmed = true := by
    obtain ⟨old, hold, -⟩ := hanswered.promised key i e he
    exact hentries e entry ⟨old, hold⟩ hentry hconfirmed
  by_cases hkey : key = key'
  · subst hkey
    by_cases hi : i = (a.history key).count + 1
    · exact hlast rfl hi
    · obtain ⟨hpos, hle, hpromise⟩ := hresolved
      rw [hhistory, Function.update_self] at hle hpromise
      have hle : i ≤ (a.history key).count := by
        have hle : i ≤ (a.history key).count + 1 := hle
        omega
      have hresolved : Resolved a key i := by
        refine ⟨hpos, hle, fun e he => ?_⟩
        obtain ⟨entry, hentry, hconfirmed⟩ := hpromise e ((if_neg hi).trans he)
        exact hbefore e entry he hentry hconfirmed
      obtain ⟨d, hd, hcovers⟩ := hanswered.inFile key i hresolved
      refine ⟨d, (congrFun hfiles key).trans hd, ?_⟩
      rw [hhistory, Function.update_self]
      exact hcovers.add hle current e
  · have hsame : a'.history key = a.history key := by rw [hhistory, Function.update_of_ne hkey]
    obtain ⟨d, hd, hcovers⟩ := hanswered.inFile key i (resolved_before hresolved hsame hbefore)
    refine ⟨d, (congrFun hfiles key).trans hd, ?_⟩
    rw [hsame]
    exact hcovers

theorem Effect.inFile (h : Sound a) (hsettled : Settled a) (hanswered : Answered a) (heffect : Effect hotLimit fresh a
    a') (key : OutcomeKey) (i : Nat) (hresolved : Resolved a' key i) : InFile a' key i := by
  have hunchanged (hentries : a'.entries = a.entries) (hfiles : a'.files = a.files) (hhistory : a'.history = a.history) :
      InFile a' key i := by
    have hbefore : Resolved a key i := by
      unfold Resolved at hresolved
      rw [hentries, hhistory] at hresolved
      exact hresolved
    obtain ⟨d, hd, hcovers⟩ := hanswered.inFile key i hbefore
    refine ⟨d, (congrFun hfiles key).trans hd, ?_⟩
    rw [hhistory]
    exact hcovers
  cases heffect with
  | entries entries hentries =>
    refine hanswered.inFile key i (resolved_before hresolved rfl fun e entry he hentry hconfirmed => ?_)
    obtain hsame | ⟨old, entry', hstep, hnew, hok⟩ := hentries e
    · exact ⟨entry, hsame.symm.trans hentry, hconfirmed⟩
    · obtain rfl := Option.some.inj (hnew.symm.trans hentry)
      rw [hok.unconfirmed] at hconfirmed
      cases hconfirmed
  | confirm e entry entry' hstep hwritten =>
    by_cases hkey : key = entry.key
    · subst hkey
      exact ⟨entry'.record, hwritten.file, hwritten.latest.covers hresolved.2.1⟩
    · refine hanswered.inFile key i (resolved_before hresolved rfl fun e' found he hfound hconfirmed => ?_)
      obtain ⟨old, hold, hkeyOld⟩ := hanswered.promised key i e' he
      have hne : e' ≠ e := by
        rintro rfl
        obtain rfl := Option.some.inj (hold.symm.trans hstep.held)
        exact hkey hkeyOld.symm
      exact ⟨found, (Function.update_of_ne hne _ _).symm.trans hfound, hconfirmed⟩
  | land e entry entry' record hstep hok hsucceeds =>
    obtain ⟨d, hd, hcovers⟩ := hanswered.inFile key i (resolved_before hresolved rfl
      fun e' found _ hfound hconfirmed => confirmed_before hok.unconfirmed hfound hconfirmed)
    by_cases hkey : key = entry.key
    · subst hkey
      exact ⟨record, Function.update_self .., hcovers.newer hsucceeds.observed (hsucceeds.newer d hd)⟩
    · exact ⟨d, (Function.update_of_ne hkey _ _).trans hd, hcovers⟩
  | repeated key' confirmed current hpending hhot hsame =>
    refine inFile_added hanswered hresolved rfl rfl (fun e entry _ hentry hconfirmed => ⟨entry, hentry, hconfirmed⟩) ?_
    rintro rfl hi
    have hfile := hsettled.hot key confirmed hpending hhot
    refine ⟨confirmed, hfile, ?_⟩
    have hlatest := (hsettled.latest key confirmed hpending hfile).add hsame.symm none
    dsimp only
    rw [Function.update_self]
    exact hlatest.covers (le_of_eq hi)
  | opened key' firstFailure current hpending =>
    refine inFile_added hanswered hresolved rfl rfl (fun e entry hold hentry hconfirmed => ?_) ?_
    · exact confirmed_before (by unfold Entry.write; rfl) hentry hconfirmed
    · rintro rfl hi
      obtain ⟨-, -, hpromise⟩ := hresolved
      obtain ⟨entry, hentry, hconfirmed⟩ := hpromise a.next (by
        show (Function.update a.history key _ key).promise i = some a.next
        rw [Function.update_self]
        exact if_pos hi)
      replace hentry : Function.update a.entries a.next _ a.next = some entry := hentry
      rw [Function.update_self] at hentry
      cases hentry
      cases hconfirmed
  | again e entry current hentry hpending =>
    obtain ⟨hnew, -⟩ := h.observed hentry hpending current
    refine inFile_added hanswered hresolved rfl rfl
      (fun e' found _ hfound hconfirmed => confirmed_before hnew hfound hconfirmed) ?_
    rintro rfl hi
    obtain ⟨-, -, hpromise⟩ := hresolved
    obtain ⟨found, hfound, hconfirmed⟩ := hpromise e (by
      show (Function.update a.history entry.key _ entry.key).promise i = some e
      rw [Function.update_self]
      exact if_pos hi)
    replace hfound : Function.update a.entries e _ e = some found := hfound
    rw [Function.update_self] at hfound
    obtain rfl := Option.some.inj hfound
    rw [hnew] at hconfirmed
    cases hconfirmed
  | _ => exact hunchanged rfl rfl rfl

end

end RabiRoute.PluginRuntimeHost
