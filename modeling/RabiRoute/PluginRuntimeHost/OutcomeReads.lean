import RabiRoute.PluginRuntimeHost.OutcomeAnswers

/-!
# Reads of what was answered for
-/

namespace RabiRoute.PluginRuntimeHost

section

variable {hotLimit : Nat} {fresh : Prop} {a a' : Archive}

theorem Effect.history (heffect : Effect hotLimit fresh a a') (key : OutcomeKey) :
    a'.history key = a.history key ∨ ∃ current e, a'.history key = (a.history key).add current e := by
  have hadded (key' : OutcomeKey) (current : Receipt) (e : Option EntryId) :
      Function.update a.history key' ((a.history key').add current e) key = a.history key ∨
        ∃ current' e', Function.update a.history key' ((a.history key').add current e) key =
          (a.history key).add current' e' := by
    by_cases hkey : key = key'
    · subst hkey
      rw [Function.update_self]
      exact .inr ⟨current, e, rfl⟩
    · exact .inl (Function.update_of_ne hkey _ _)
  cases heffect with
  | repeated key' confirmed current hpending hhot hsame => exact hadded key' current none
  | opened key' firstFailure current hpending => exact hadded key' current (some a.next)
  | again e entry current hentry hpending => exact hadded entry.key current (some e)
  | _ => exact .inl rfl

theorem Effect.resolved (h : Sound a) (heffect : Effect hotLimit fresh a a') {key : OutcomeKey} {i : Nat}
    (hresolved : Resolved a key i) : Resolved a' key i := by
  obtain ⟨hpos, hle, hpromise⟩ := hresolved
  have hkept (e : EntryId) (he : (a.history key).promise i = some e) :
      ∃ entry, a'.entries e = some entry ∧ entry.confirmed = true := by
    obtain ⟨entry, hentry, hconfirmed⟩ := hpromise e he
    obtain ⟨entry', hentry', -, hsame⟩ := heffect.keepsEntry h hentry
    obtain rfl := hsame hconfirmed
    exact ⟨entry', hentry', hconfirmed⟩
  obtain hsame | ⟨current, e, hadd⟩ := heffect.history key
  · unfold Resolved
    rw [hsame]
    exact ⟨hpos, hle, hkept⟩
  · unfold Resolved
    rw [hadd]
    refine ⟨hpos, Nat.le_succ_of_le hle, fun e' he' => hkept e' ?_⟩
    have hi : i ≠ (a.history key).count + 1 := by omega
    exact (if_neg hi).symm.trans he'

theorem Effect.covers (heffect : Effect hotLimit fresh a a') {key : OutcomeKey} {i : Nat}
    (hle : i ≤ (a.history key).count) {record : ArchivedOutcome} (hcovers : Covers (a.history key) record i) :
    Covers (a'.history key) record i := by
  obtain hsame | ⟨current, e, hadd⟩ := heffect.history key
  · rw [hsame]
    exact hcovers
  · rw [hadd]
    exact hcovers.add hle current e

/-- A pending entry goes on to cover what it covers. -/
theorem Effect.entryCovers (h : Sound a) (heffect : Effect hotLimit fresh a a') {e : EntryId} {entry : Entry} {i : Nat}
    (hentry : a.entries e = some entry) (hle : i ≤ (a.history entry.key).count) (hcovers : Covers (a.history entry.key)
    entry.record i) : ∃ entry', a'.entries e = some entry' ∧ Covers (a'.history entry.key) entry'.record i := by
  have hold := heffect.covers hle hcovers
  have hstepped {e' : EntryId} {old new : Entry} (hstep : EntryStep a e' old new) :
      ∃ entry', Function.update a.entries e' (some new) e = some entry' ∧
        Covers (a'.history entry.key) entry'.record i := by
    by_cases he : e = e'
    · subst he
      obtain rfl := Option.some.inj (hentry.symm.trans hstep.held)
      refine ⟨new, Function.update_self .., ?_⟩
      unfold Covers
      rw [hstep.stamp, hstep.current]
      exact hold
    · exact ⟨entry, (Function.update_of_ne he _ _).trans hentry, hold⟩
  cases heffect with
  | entries entries hentries =>
    obtain hsame | ⟨old, entry', hstep, hnew, -⟩ := hentries e
    · exact ⟨entry, hsame.trans hentry, hold⟩
    · obtain rfl := Option.some.inj (hentry.symm.trans hstep.held)
      refine ⟨entry', hnew, ?_⟩
      unfold Covers
      rw [hstep.stamp, hstep.current]
      exact hold
  | confirm e' old new hstep hwritten => exact hstepped hstep
  | land e' old new record hstep hok hsucceeds => exact hstepped hstep
  | again e' old current hold' hpending =>
    by_cases he : e = e'
    · subst he
      obtain rfl := Option.some.inj (hentry.symm.trans hold')
      refine ⟨_, Function.update_self .., ?_⟩
      rw [sameRecord_write.1]
      unfold Entry.observe
      split
      · exact hold
      · -- the record is an observation after `i`
        intro j hj hji
        replace hj : (a.history entry.key).count + 1 < j := hj
        omega
    · exact ⟨entry, (Function.update_of_ne he _ _).trans hentry, hold⟩
  | opened key firstFailure current hpending =>
    have hne : e ≠ a.next := by
      rintro rfl
      rw [h.new _ le_rfl] at hentry
      cases hentry
    exact ⟨entry, (Function.update_of_ne hne _ _).trans hentry, hold⟩
  | _ => exact ⟨entry, hentry, hold⟩

/-- What a call of `read` has come to, that began when the promise of the observation was resolved. -/
def ReadOk (a : Archive) (key : OutcomeKey) (i : Nat) : ReadCall → Prop
  | .idle => True
  | .joining key' e => key' = key →
      ∃ entry, a.entries e = some entry ∧ entry.key = key ∧ Covers (a.history key) entry.record i
  | .cold key' sampled => key' = key →
      ∀ found, sampled = some found → ∃ d, found = .stored d ∧ Covers (a.history key) d i
  | .ended key' outcome => key' = key →
      outcome = .failed ∨ ∃ confirmed record, outcome = .found confirmed record ∧ Covers (a.history key) record i

theorem Effect.readKept (h : Sound a) (heffect : Effect hotLimit fresh a a') {key : OutcomeKey} {i : Nat}
    (hle : i ≤ (a.history key).count) {call : ReadCall} (hok : ReadOk a key i call) : ReadOk a' key i call := by
  cases call with
  | idle => trivial
  | joining key' e =>
    intro hkey
    obtain ⟨entry, hentry, hkeyEntry, hcovers⟩ := hok hkey
    rw [← hkeyEntry] at hle hcovers
    obtain ⟨entry', hentry', hcovers'⟩ := heffect.entryCovers h hentry hle hcovers
    obtain ⟨found, hfound, hkeyFound, -⟩ := heffect.keepsEntry h hentry
    obtain rfl := Option.some.inj (hentry'.symm.trans hfound)
    rw [hkeyEntry] at hcovers'
    exact ⟨entry', hentry', hkeyFound.trans hkeyEntry, hcovers'⟩
  | cold key' sampled =>
    intro hkey found hfound
    obtain ⟨d, hd, hcovers⟩ := hok hkey found hfound
    exact ⟨d, hd, heffect.covers hle hcovers⟩
  | ended key' outcome =>
    intro hkey
    refine (hok hkey).imp_right ?_
    rintro ⟨confirmed, record, houtcome, hcovers⟩
    exact ⟨confirmed, record, houtcome, heffect.covers hle hcovers⟩

theorem Effect.reads (h : Sound a) (hsettled : Settled a) (hanswered : Answered a)
    (heffect : Effect hotLimit fresh a a') {key : OutcomeKey} {i : Nat} (hresolved : Resolved a key i) {r : ReadId}
    (hok : ReadOk a key i (a.reads r)) : ReadOk a' key i (a'.reads r) := by
  have hkept := heffect.readKept h hresolved.2.1 hok
  obtain ⟨d, hd, hcovers⟩ := hanswered.inFile key i hresolved
  -- the read that takes the step, or another
  have hset {r' : ReadId} {call : ReadCall} (hnew : ReadOk a key i (a.reads r') → ReadOk a key i call) :
      ReadOk a key i (Function.update a.reads r' call r) := by
    by_cases hr : r = r'
    · subst hr
      rw [Function.update_self]
      exact hnew hok
    · rw [Function.update_of_ne hr]
      exact hok
  cases heffect with
  | entries entries hentries => exact hkept
  | confirm e entry entry' hstep hwritten => exact hkept
  | land e entry entry' record hstep hlandOk hsucceeds => exact hkept
  | repeated key' confirmed current hpending hhot hsame => exact hkept
  | opened key' firstFailure current hpending => exact hkept
  | again e entry current hentry hpending => exact hkept
  | joins r' key' e hidle hpending =>
    refine hset fun _ hkey => ?_
    subst hkey
    obtain ⟨entry, hentry, hkeyEntry, hentryOk⟩ := h.pending key' e hpending
    exact ⟨entry, hentry, hkeyEntry, hentryOk.latest.covers hresolved.2.1⟩
  | hits r' key' hot hidle hpending hhot =>
    refine hset fun _ hkey => ?_
    subst hkey
    obtain rfl := File.stored.inj (hd.symm.trans (hsettled.hot key' hot hpending hhot))
    exact .inr ⟨true, d, rfl, hcovers⟩
  | misses r' key' hidle => exact hset fun _ _ found hfound => by cases hfound
  | samples r' key' hread =>
    refine hset fun _ hkey found hfound => ?_
    subst hkey
    obtain rfl := Option.some.inj hfound
    exact ⟨d, hd, hcovers⟩
  | warms r' key' record hread hfresh =>
    refine hset fun hcold hkey => ?_
    rw [hread] at hcold
    obtain ⟨found, hfound, hfoundCovers⟩ := hcold hkey (.stored record) rfl
    obtain rfl := File.stored.inj hfound
    exact .inr ⟨true, record, rfl, hfoundCovers⟩
  | finds r' key' e entry confirmed hread hentry =>
    refine hset fun hjoining hkey => ?_
    rw [hread] at hjoining
    obtain ⟨found, hfound, -, hfoundCovers⟩ := hjoining hkey
    obtain rfl := Option.some.inj (hentry.symm.trans hfound)
    exact .inr ⟨confirmed, entry.record, rfl, hfoundCovers⟩
  | lacks r' key' hread =>
    refine hset fun hcold hkey => ?_
    rw [hread] at hcold
    obtain ⟨found, hfound, -⟩ := hcold hkey .absent rfl
    cases hfound
  | fails r' key' hread => exact hset fun _ _ => .inl rfl

end

end RabiRoute.PluginRuntimeHost
