import RabiRoute.ThreadCreation.ReservationSteps

/-!
# The turns of a call

From its start, and from each answer that it awaits, a call runs to where it waits again and keeps the store
sound all the way.
-/

namespace RabiRoute.ThreadCreation

open Interleave
open Interleave.Thread (runs_step runs_await)
open AgentRequests (presentText)

/-- A turn of `t` from `s₀` goes on from `s` with the program `p`. -/
abbrev TurnOk (calls : CallId → CreateParams) (clock : Nat → Int) (t : CallId) (s₀ : Store)
    (p : Prog CodexThreadCreateResult) (s : Store) : Prop :=
  (thread calls clock).Runs t (Kept calls t s₀) (fun p s ↦ Waits calls t s p) p s

section

variable {calls : CallId → CreateParams} {clock : Nat → Int} {t : CallId} {s₀ s : Store}

/-! ## One command -/

theorem runs_sys {α : Type} {c : Command} {k : c.Answer → Prog α} {P : Store → Prop} {Q : Prog α → Store → Prop}
    (hc : c.awaits = false) : (thread calls clock).Runs t P Q (sys c >>= k) s ↔
      P s ∧ (thread calls clock).Runs t P Q (k (exec clock t c s).1) (exec clock t c s).2 := runs_step hc

theorem TurnOk.ret (h : Kept calls t s₀ s) (result : CodexThreadCreateResult) :
    TurnOk calls clock t s₀ (.ret result) s := ⟨h, .returned result⟩

theorem TurnOk.raise (h : Kept calls t s₀ s) (error : CreationError) :
    TurnOk calls clock t s₀ (.raise error) s := ⟨h, .raised error⟩

theorem TurnOk.now {k : Int → Prog CodexThreadCreateResult} (h : Kept calls t s₀ s)
    (hrest : TurnOk calls clock t s₀ (k (clock s.ticks)) (exec clock t .now s).2) :
    TurnOk calls clock t s₀ (sys .now >>= k) s := (runs_sys rfl).mpr ⟨h, hrest⟩

theorem TurnOk.write {r : CodexThreadCreationReservation} {k : Unit → Prog CodexThreadCreateResult}
    (h : Kept calls t s₀ s) (hrest : TurnOk calls clock t s₀ (k ()) (s.put t r)) :
    TurnOk calls clock t s₀ (sys (.writeReservation r) >>= k) s := (runs_sys rfl).mpr ⟨h, hrest⟩

/-! ## After `create` -/

theorem runCreate_ok (h : Kept calls t s₀ s) (stages : Nat) {current : CodexThreadCreationReservation} (howned : Owned
    calls current) (hheld : (calls t).callerIntent ≠ none → (attempts s.log).head? = some t ∧ ¬Free s.file) : TurnOk
    calls clock t s₀ (runCreate (calls t) stages current) s := by
  have hwaits : Waits calls t s (runCreate (calls t) stages current) := .creation stages current howned hheld
  cases stages with
  | zero => exact (runs_await rfl).mpr ⟨h, hwaits⟩
  | succ stages => exact (runs_await rfl).mpr ⟨h, hwaits⟩

theorem completeCreation_ok (h : Kept calls t s₀ s) {current : CodexThreadCreationReservation} (howned : Owned calls
    current) (result : CodexThreadCreateResult) (hkeep : ∀ earlier, CompletedWith s₀.file earlier → result = earlier) :
    TurnOk calls clock t s₀ (completeCreation current result) s := by
  refine .now h (.write (h.now clock) (.ret ?_ result))
  refine (h.now clock).putSettled howned .completed rfl (by decide) (by decide) ?_
  intro earlier hearlier
  exact ⟨rfl, congrArg some (hkeep earlier hearlier)⟩

theorem failCreation_ok (h : Kept calls t s₀ s) {current : CodexThreadCreationReservation}
    (howned : Owned calls current) (failure : CreateFailure) (hkeep : ∀ earlier, ¬CompletedWith s₀.file earlier)
    (hreleased : (calls t).callerIntent.isSome && failure.metadataNotStarted →
      Licensed (calls t) t s₀ ∧ Open s.log) :
    TurnOk calls clock t s₀ (failCreation (calls t) current failure) s := by
  refine .now h (.write (h.now clock) (.raise ?_ _))
  cases hnotStarted : (calls t).callerIntent.isSome && failure.metadataNotStarted with
  | true =>
    obtain ⟨hlicensed, hopen⟩ := hreleased hnotStarted
    exact (h.now clock).putLicensed howned hlicensed hopen
  | false =>
    refine (h.now clock).putSettled howned .uncertain rfl (by decide) (by decide) ?_
    intro earlier hearlier
    exact absurd hearlier (hkeep earlier)

/-- A stage that `create` reports. -/
theorem stage_ok (h : Kept calls t s₀ s) {current : CodexThreadCreationReservation}
    (howned : Owned calls current) (stages : Nat) (stage : Stage) (threadId : JsString) (hkeep : ∀ earlier, ¬CompletedWith s₀.file earlier)
    (hlast : (calls t).callerIntent ≠ none → (attempts s.log).head? = some t) :
    TurnOk calls clock t s₀ (do
      let updatedAt ← sys .now
      let current := { current with state := stage.state, threadId := some threadId, updatedAt := updatedAt }
      sys (.writeReservation current)
      runCreate (calls t) stages current) s := by
  have hfailed : stage.state ≠ .failedBeforeCreate := by cases stage <;> decide
  refine .now h (.write (h.now clock) (runCreate_ok ?_ _ howned fun hintent => ⟨hlast hintent, fun hfree => ?_⟩))
  · refine (h.now clock).putSettled howned stage.state rfl hfailed (by cases stage <;> decide) ?_
    intro earlier hearlier
    exact absurd hearlier (hkeep earlier)
  · exact hfailed (hfree _ rfl)

/-! ## Reserving -/

theorem Kept.opened (h : Kept calls t s₀ s) (hfile : s.file = .absent) :
    Kept calls t s₀ { s with file := .unreadable } where
  sound := by
    refine ⟨h.sound.log, (fun r hr => by cases hr), fun _ => h.sound.free ?_, fun r hr => by cases hr⟩
    rw [hfile]
    intro r hr
    cases hr
  grown := h.grown
  seen := h.seen
  attempted := h.attempted
  held hintent hfree hlast := by
    refine absurd ?_ (h.held hintent hfree hlast).2
    rw [hfile]
    intro r hr
    cases hr
  completed result hresult := by
    obtain ⟨r, hr, -⟩ := h.completed result hresult
    rw [hfile] at hr
    cases hr

theorem newReservation_owned (t : CallId) (existing : Option CodexThreadCreationReservation) (now : Int) :
    Owned calls (newReservation (calls t) existing now) := ⟨t, rfl, rfl⟩

/-- What `reserveCreation` answers in a turn that began in `s`. -/
structure ReservedOk (calls : CallId → CreateParams) (t : CallId) (s₀ s : Store) (reserved : Reserved)
    (s' : Store) : Prop where
  owned : Owned calls reserved.reservation
  same : attempts s'.log = attempts s.log
  created : reserved.created = true → Licensed (calls t) t s₀ ∧ Open s'.log
  found : reserved.created = false → s'.file = .stored reserved.reservation ∧
    s'.seen t = ⟨s'.creator, (attempts s'.log).length⟩

theorem reserveCreation_ok (h : Kept calls t s₀ s) (hlicensed : Free s.file → Licensed (calls t) t s₀) :
    (thread calls clock).Runs t (Kept calls t s₀)
      (fun p s' => (∃ reserved, p = .ret reserved ∧ ReservedOk calls t s₀ s reserved s') ∨
        ∃ e, p = .raise e ∧ Waits calls t s' (.raise e)) (reserveCreation (calls t)) s := by
  refine (runs_sys rfl).mpr ⟨h, ?_⟩
  have hread := h.read clock
  cases hfile : s.file with
  | absent =>
    have hfree : Free s.file := by
      rw [hfile]
      intro r hr
      cases hr
    obtain ⟨hlicensed, hopen⟩ := And.intro (hlicensed hfree) (h.sound.free hfree)
    rw [show (exec clock t .readReservation s).1 = none by rw [exec, hfile]; rfl]
    refine (runs_sys rfl).mpr ⟨hread, (runs_sys rfl).mpr ⟨hread.now clock, ?_⟩⟩
    rw [show exec clock t .openExclusive (exec clock t .now (exec clock t .readReservation s).2).2 =
      (true, { (exec clock t .now (exec clock t .readReservation s).2).2 with file := .unreadable }) by
        simp only [exec, hfile]]
    refine (runs_sys rfl).mpr ⟨(hread.now clock).opened hfile, (?_ : _ ∧ _)⟩
    have hput := ((hread.now clock).opened hfile).putLicensed (newReservation_owned t none
      (clock (exec clock t .readReservation s).2.ticks)) hlicensed hopen
    exact ⟨hput, .inl ⟨_, rfl, newReservation_owned t _ _, rfl, fun _ => ⟨hlicensed, hopen⟩, nofun⟩⟩
  | unreadable =>
    rw [show (exec clock t .readReservation s).1 = none by rw [exec, hfile]; rfl]
    refine (runs_sys rfl).mpr ⟨hread, (runs_sys rfl).mpr ⟨hread.now clock, ?_⟩⟩
    rw [show exec clock t .openExclusive (exec clock t .now (exec clock t .readReservation s).2).2 =
      (false, (exec clock t .now (exec clock t .readReservation s).2).2) by simp only [exec, hfile]]
    refine (runs_sys rfl).mpr ⟨hread.now clock, ?_⟩
    rw [show (exec clock t .readReservation (exec clock t .now (exec clock t .readReservation s).2).2).1 = none by
      simp only [exec, hfile, ReservationFile.parse]]
    exact ⟨(hread.now clock).read clock, .inr ⟨_, rfl, .raised _⟩⟩
  | stored existing =>
    rw [show (exec clock t .readReservation s).1 = some existing by rw [exec, hfile]; rfl]
    dsimp only
    cases hconflict : intentConflict (calls t) existing with
    | true => exact ⟨hread, .inr ⟨_, rfl, .raised _⟩⟩
    | false =>
      by_cases hstate : existing.state = .failedBeforeCreate
      · have hfree : Free s.file := by
          rw [hfile]
          intro r hr
          cases hr
          exact hstate
        obtain ⟨hlicensed, hopen⟩ := And.intro (hlicensed hfree) (h.sound.free hfree)
        rw [if_neg Bool.false_ne_true, if_neg (not_not_intro hstate)]
        refine (runs_sys rfl).mpr ⟨hread, (runs_sys rfl).mpr ⟨hread.now clock, (?_ : _ ∧ _)⟩⟩
        have hput := (hread.now clock).putLicensed (newReservation_owned t (some existing)
          (clock (exec clock t .readReservation s).2.ticks)) hlicensed hopen
        exact ⟨hput, .inl ⟨_, rfl, newReservation_owned t _ _, rfl, fun _ => ⟨hlicensed, hopen⟩, nofun⟩⟩
      · rw [if_neg Bool.false_ne_true, if_pos hstate]
        exact ⟨hread, .inl ⟨_, rfl, h.sound.owned existing hfile, rfl, nofun, fun _ => ⟨hfile, if_pos rfl⟩⟩⟩

theorem createReserved_ok (h : Kept calls t s₀ s) {r : CodexThreadCreationReservation} (howned : Owned calls r)
    (hlicensed : Licensed (calls t) t s₀) (hopen : Open s.log) (hnew : t ∉ attempts s.log)
    (hsame : attempts s.log = attempts s₀.log) : TurnOk calls clock t s₀ (createReserved (calls t) r) s := by
  refine .now h (.write (h.now clock) ?_)
  have hput := (h.now clock).putLicensed
    (show Owned calls { r with state := .creating, updatedAt := clock s.ticks } from howned) hlicensed hopen
  refine (runs_sys rfl).mpr ⟨hput, ?_⟩
  have hattempt := hput.attempt hlicensed hopen hnew hsame rfl rfl rfl
  refine runCreate_ok hattempt _ howned fun _ => ⟨rfl, fun hfree => ?_⟩
  cases hfree _ rfl

/-! ## A reservation that is there -/

theorem markUncertain_ok (h : Kept calls t s₀ s) {r : CodexThreadCreationReservation} (howned : Owned calls r) (now : Int)
    (evidenceError : JsString) (hkeep : ∀ earlier, ¬CompletedWith s₀.file earlier) :
    TurnOk calls clock t s₀ (markUncertain r now evidenceError) s := by
  refine .write h (.raise ?_ _)
  refine h.putSettled howned .uncertain rfl (by decide) (by decide) ?_
  intro earlier hearlier
  exact absurd hearlier (hkeep earlier)

theorem recreateMissing_ok (h : Kept calls t s₀ s) {r : CodexThreadCreationReservation} (howned : Owned calls r) (now :
    Int) (hlicensed : Licensed (calls t) t s₀) (hopen : Open s.log) (hnew : t ∉ attempts s.log) (hsame : attempts s.log
    = attempts s₀.log) : TurnOk calls clock t s₀ (recreateMissing (calls t) r now) s := by
  refine .write h ?_
  have hput := h.putLicensed (show Owned calls { r with
    state := .failedBeforeCreate, error := some missingError, updatedAt := now } from howned) hlicensed hopen
  refine (reserveCreation_ok hput fun _ => hlicensed).bind fun reserved s' hs' hreserved => ?_
  cases hcreated : reserved.created with
  | true =>
    obtain ⟨-, hopen⟩ := hreserved.created hcreated
    have hnew : t ∉ attempts s'.log := hreserved.same ▸ hnew
    exact createReserved_ok hs' hreserved.owned hlicensed hopen hnew (hreserved.same.trans hsame)
  | false => exact TurnOk.raise hs' _

theorem checkStale_ok (h : Kept calls t s₀ s) {r : CodexThreadCreationReservation} (howned : Owned calls r)
    (hkeep : isStale (calls t) r (clock s.ticks) → ∀ earlier, ¬CompletedWith s₀.file earlier)
    (hconfirm : (calls t).callerIntent = none → isStale (calls t) r (clock s.ticks) →
      t ∉ attempts s.log ∧ SeenLast s t) :
    TurnOk calls clock t s₀ (checkStale (calls t) r) s := by
  refine .now h ?_
  by_cases hstale : isStale (calls t) r (clock s.ticks)
  · rw [if_pos hstale]
    by_cases hconfirms :
        (calls t).callerIntent.isNone && (presentText r.threadId).isNone && (calls t).confirmMissing
    · rw [if_pos hconfirms]
      have hnone : (calls t).callerIntent = none := by
        simp only [Bool.and_eq_true, Option.isNone_iff_eq_none] at hconfirms
        exact hconfirms.1.1
      obtain ⟨hnew, hseen⟩ := hconfirm hnone hstale
      exact (runs_await rfl).mpr ⟨h.now clock, .confirmation r _ howned hnone hnew hseen⟩
    · rw [if_neg hconfirms]
      exact markUncertain_ok (h.now clock) howned _ [] (hkeep hstale)
  · rw [if_neg hstale]
    exact .raise (h.now clock) _

theorem completeRecovered_ok (h : Kept calls t s₀ s) {r : CodexThreadCreationReservation} (howned : Owned calls r)
    (recovered : CodexThreadCreateResult) (hkeep : otherReceipt r recovered = false → ∀ earlier, CompletedWith s₀.file
    earlier → recovered = earlier) : TurnOk calls clock t s₀ (completeRecovered r recovered) s := by
  unfold completeRecovered
  cases hother : otherReceipt r recovered with
  | true => exact .raise h _
  | false =>
    rw [if_neg Bool.false_ne_true]
    refine .now h (.write (h.now clock) (.ret ?_ recovered))
    refine (h.now clock).putSettled howned .completed rfl (by decide) (by decide) ?_
    intro earlier hearlier
    exact ⟨rfl, congrArg some (hkeep hother earlier hearlier)⟩

theorem answerExisting_ok (h : Kept calls t s₀ s) (r : CodexThreadCreationReservation)
    (hfile : s.file = .stored r) (hseen : s.seen t = ⟨s.creator, (attempts s.log).length⟩)
    (hnew : t ∉ attempts s.log) : TurnOk calls clock t s₀ (answerExisting (calls t) r) s := by
  unfold answerExisting
  cases hresult : (if r.state = .completed then r.result else none : Option CodexThreadCreateResult) with
  | some result => exact .ret h result
  | none =>
    have hkeep (earlier : CodexThreadCreateResult) : ¬CompletedWith s₀.file earlier := by
      intro hearlier
      obtain ⟨r', hr', hstate, hr'result⟩ := h.completed earlier hearlier
      rw [hfile] at hr'
      cases hr'
      rw [if_pos hstate, hr'result] at hresult
      cases hresult
    dsimp only
    by_cases hrecover : canRecover (calls t) r
    · rw [if_pos hrecover]
      have hintent : (calls t).callerIntent ≠ none := by
        simp only [canRecover, Bool.and_eq_true] at hrecover
        exact Option.isSome_iff_ne_none.mp hrecover.1.1
      exact (runs_await rfl).mpr ⟨h, .recovery r (h.sound.owned r hfile) hintent hnew⟩
    · rw [if_neg hrecover]
      refine checkStale_ok h (h.sound.owned r hfile) (fun _ => hkeep) fun _ hstale => ⟨hnew, ?_⟩
      have hcreating : r.state = .creating := by
        simp only [isStale, Bool.and_eq_true, decide_eq_true_eq] at hstale
        exact hstale.1
      obtain ⟨c, hc, hlast⟩ := h.sound.creating r hfile hcreating
      refine ⟨?_, fun _ => ⟨c, ?_, hlast⟩⟩
      · rw [hseen]
      · rw [hseen]
        exact hc

theorem main_ok (hsound : Sound calls s₀) (hnew : t ∉ attempts s₀.log) : TurnOk calls clock t s₀ (main calls t) s₀ := by
  have hlicensed (hfree : Free s₀.file) : Licensed (calls t) t s₀ := by
    refine ⟨.inr (.inl hfree), fun result hresult => ?_⟩
    obtain ⟨r, hr, hstate, -⟩ := hresult
    rw [hr] at hfree
    have hfailed := hfree r rfl
    rw [hstate] at hfailed
    cases hfailed
  refine (reserveCreation_ok (.refl hsound) hlicensed).bind fun reserved s hs hreserved => ?_
  have hnew : t ∉ attempts s.log := hreserved.same ▸ hnew
  cases hcreated : reserved.created with
  | true =>
    obtain ⟨hlicensed, hopen⟩ := hreserved.created hcreated
    exact createReserved_ok hs hreserved.owned hlicensed hopen hnew hreserved.same
  | false =>
    obtain ⟨hfile, hseen⟩ := hreserved.found hcreated
    exact answerExisting_ok hs _ hfile hseen hnew

end

end RabiRoute.ThreadCreation
