import RabiRoute.ThreadCreation.ReservationLog

/-!
# What a turn does to the reservation

A turn keeps the store sound.  It says what a turn of one call leaves of what the other calls rely on.
-/

namespace RabiRoute.ThreadCreation

open Interleave

/-- Nobody who reads the file finds a creation in it. -/
def Free (file : ReservationFile) : Prop := ∀ r, file.parse = some r → r.state = .failedBeforeCreate

/-- Whoever creates next is justified. -/
def Open (log : List LogEvent) : Prop := ∀ last, (attempts log).head? = some last → Released log last

/-- The reservation is one that some call made. -/
def Owned (calls : CallId → CreateParams) (r : CodexThreadCreationReservation) : Prop :=
  ∃ owner, r.key = creationKey (calls owner) ∧ r.callerIntentHash = (calls owner).callerIntent.map (·.hash)

structure Sound (calls : CallId → CreateParams) (s : Store) : Prop where
  log : LogOk s.log
  owned : ∀ r, s.file = .stored r → Owned calls r
  free : Free s.file → Open s.log
  creating : ∀ r, s.file = .stored r → r.state = .creating →
    ∃ c, s.creator = some c ∧ ∀ last, (attempts s.log).head? = some last → c = last ∨ Released s.log last

/-! ## The log grows -/

theorem Released.cons {log : List LogEvent} {t : CallId} (h : Released log t) (event : LogEvent) :
    Released (event :: log) t := h.append [event]

theorem Open.cons {log : List LogEvent} {event : LogEvent} (h : Open log)
    (hattempts : attempts (event :: log) = attempts log) : Open (event :: log) := by
  intro last hlast
  rw [hattempts] at hlast
  exact (h last hlast).cons event

theorem Sound.note {calls : CallId → CreateParams} {s : Store} {event : LogEvent} (h : Sound calls s) (hlog : LogOk
    (event :: s.log)) (hattempts : attempts (event :: s.log) = attempts s.log) : Sound calls (s.note event) := by
  refine ⟨hlog, h.owned, fun hfree => (h.free hfree).cons hattempts, fun r hr hcreating => ?_⟩
  obtain ⟨c, hc, hlast⟩ := h.creating r hr hcreating
  refine ⟨c, hc, fun last hhead => ?_⟩
  have hhead : (attempts (event :: s.log)).head? = some last := hhead
  rw [hattempts] at hhead
  exact (hlast last hhead).imp_right (·.cons event)

/-! ## Turns -/

section

variable {calls : CallId → CreateParams} {t : CallId} {s₀ s : Store}

/-- The call may make the reservation anew. -/
structure Licensed (params : CreateParams) (t : CallId) (s₀ : Store) : Prop where
  held : params.callerIntent = none ∨ Free s₀.file ∨ (attempts s₀.log).head? = some t
  uncompleted : ∀ result, ¬CompletedWith s₀.file result

/-- What a turn of `t` from `s₀` keeps, after each of its commands. -/
structure Kept (calls : CallId → CreateParams) (t : CallId) (s₀ s : Store) : Prop where
  sound : Sound calls s
  grown : ∃ more, s.log = more ++ s₀.log
  seen : ∀ u, u ≠ t → s.seen u = s₀.seen u
  attempted : attempts s.log = attempts s₀.log ∨ attempts s.log = t :: attempts s₀.log
  /-- A caller creates with a reservation that nobody else gives up. -/
  held : (calls t).callerIntent ≠ none → ¬Free s₀.file → (attempts s₀.log).head? ≠ some t →
    attempts s.log = attempts s₀.log ∧ ¬Free s.file
  completed : ∀ result, CompletedWith s₀.file result → CompletedWith s.file result

theorem Kept.refl (h : Sound calls s) : Kept calls t s s where
  sound := h
  grown := ⟨[], rfl⟩
  seen _ _ := rfl
  attempted := .inl rfl
  held _ hfree _ := ⟨rfl, hfree⟩
  completed _ h := h

theorem Kept.read (h : Kept calls t s₀ s) (clock : Nat → Int) :
    Kept calls t s₀ (exec clock t .readReservation s).2 where
  sound := ⟨h.sound.log, h.sound.owned, h.sound.free, h.sound.creating⟩
  grown := h.grown
  seen u hu := (if_neg hu).trans (h.seen u hu)
  attempted := h.attempted
  held := h.held
  completed := h.completed

theorem Kept.now (h : Kept calls t s₀ s) (clock : Nat → Int) :
    Kept calls t s₀ (exec clock t .now s).2 where
  sound := ⟨h.sound.log, h.sound.owned, h.sound.free, h.sound.creating⟩
  grown := h.grown
  seen := h.seen
  attempted := h.attempted
  held := h.held
  completed := h.completed

theorem Kept.put {r : CodexThreadCreationReservation} (h : Kept calls t s₀ s) (howned : Owned calls r)
    (hopen : r.state = .failedBeforeCreate ∨ r.state = .creating → Open s.log)
    (hheld : r.state = .failedBeforeCreate → Licensed (calls t) t s₀)
    (hcompleted : ∀ result, CompletedWith s₀.file result → r.state = .completed ∧ r.result = some result) :
    Kept calls t s₀ (s.put t r) where
  sound := by
    refine ⟨h.sound.log, fun r' hr => ?_, fun hfree => hopen (.inl (hfree r rfl)), fun r' hr hcreating => ?_⟩
    · cases hr
      exact howned
    cases hr
    exact ⟨t, if_pos hcreating, fun last hlast => .inr (hopen (.inr hcreating) last hlast)⟩
  grown := h.grown
  seen := h.seen
  attempted := h.attempted
  held hintent hfree hlast := by
    refine ⟨(h.held hintent hfree hlast).1, fun hnew => ?_⟩
    obtain hnone | hfree' | hlast' := (hheld (hnew r rfl)).held
    · exact hintent hnone
    · exact hfree hfree'
    · exact hlast hlast'
  completed result hresult := ⟨r, rfl, hcompleted result hresult⟩

/-- Writing what is neither a creation nor a release of one. -/
theorem Kept.putSettled {r : CodexThreadCreationReservation} (h : Kept calls t s₀ s) (howned : Owned calls r) (state :
    CodexThreadCreationState) (hstate : r.state = state) (hfailed : state ≠ .failedBeforeCreate) (hcreating : state ≠
    .creating) (hcompleted : ∀ result, CompletedWith s₀.file result → r.state = .completed ∧ r.result = some result) :
    Kept calls t s₀ (s.put t r) := by
  subst hstate
  exact h.put howned (fun hstate => hstate.elim (absurd · hfailed) (absurd · hcreating)) (absurd · hfailed) hcompleted

/-- Writing with a licence. -/
theorem Kept.putLicensed {r : CodexThreadCreationReservation} (h : Kept calls t s₀ s) (howned : Owned calls r)
    (hlicensed : Licensed (calls t) t s₀) (hopen : Open s.log) : Kept calls t s₀ (s.put t r) :=
  h.put howned (fun _ => hopen) (fun _ => hlicensed) fun result hresult => absurd hresult (hlicensed.uncompleted result)

theorem Kept.note (h : Kept calls t s₀ s) (event : LogEvent)
    (hlog : LogOk s.log → LogOk (event :: s.log)) (hattempts : attempts (event :: s.log) = attempts s.log) :
    Kept calls t s₀ (s.note event) where
  sound := h.sound.note (hlog h.sound.log) hattempts
  grown := by
    obtain ⟨more, hmore⟩ := h.grown
    exact ⟨event :: more, congrArg (event :: ·) hmore⟩
  seen := h.seen
  attempted := h.attempted.imp hattempts.trans hattempts.trans
  held hintent hfree hlast := (h.held hintent hfree hlast).imp_left hattempts.trans
  completed := h.completed

/-- `create()` is invoked, with the reservation in state `creating`. -/
theorem Kept.attempt {r : CodexThreadCreationReservation} (h : Kept calls t s₀ s)
    (hlicensed : Licensed (calls t) t s₀) (hopen : Open s.log) (hnew : t ∉ attempts s.log)
    (hsame : attempts s.log = attempts s₀.log) (hfile : s.file = .stored r) (hstate : r.state = .creating)
    (hcreator : s.creator = some t) : Kept calls t s₀ (s.note (.attempt t)) where
  sound := by
    refine ⟨⟨h.sound.log, hnew, hopen⟩, h.sound.owned, fun hfree => ?_, fun r' hr hcreating => ?_⟩
    · have hfailed := hfree r (by rw [show (s.note (.attempt t)).file = s.file from rfl, hfile]; rfl)
      rw [hstate] at hfailed
      cases hfailed
    · exact ⟨t, hcreator, fun last hlast => .inl (Option.some.inj hlast)⟩
  grown := by
    obtain ⟨more, hmore⟩ := h.grown
    exact ⟨.attempt t :: more, congrArg (LogEvent.attempt t :: ·) hmore⟩
  seen := h.seen
  attempted := .inr (congrArg (t :: ·) hsame)
  held hintent hfree hlast := by
    obtain hnone | hfree' | hlast' := hlicensed.held
    · exact absurd hnone hintent
    · exact absurd hfree' hfree
    · exact absurd hlast' hlast
  completed := h.completed

end

/-! ## What a call awaits -/

/-- What a call that awaits the confirmation saw: unless somebody created since, it saw the last creation. -/
def SeenLast (s : Store) (t : CallId) : Prop :=
  (s.seen t).attempts ≤ (attempts s.log).length ∧
    ((s.seen t).attempts = (attempts s.log).length →
      ∃ c, (s.seen t).creator = some c ∧
        ∀ last, (attempts s.log).head? = some last → c = last ∨ Released s.log last)

/-- The programs that a turn of `t` ends in. -/
inductive Waits (calls : CallId → CreateParams) (t : CallId) (s : Store) : Prog CodexThreadCreateResult → Prop where
  | returned (result : CodexThreadCreateResult) : Waits calls t s (.ret result)
  | raised (error : CreationError) : Waits calls t s (.raise error)
  | recovery (reservation : CodexThreadCreationReservation) :
      Owned calls reservation → (calls t).callerIntent ≠ none → t ∉ attempts s.log →
      Waits calls t s (.step (.recoverCreated reservation) (settleRecovery (calls t) reservation))
  | confirmation (reservation : CodexThreadCreationReservation) (now : Int) :
      Owned calls reservation → (calls t).callerIntent = none → t ∉ attempts s.log → SeenLast s t →
      Waits calls t s (.step (.confirmMissing reservation) (settleStale (calls t) reservation now))
  | creation (stages : Nat) (current : CodexThreadCreationReservation) :
      Owned calls current → ((calls t).callerIntent ≠ none → (attempts s.log).head? = some t ∧ ¬Free s.file) →
      Waits calls t s (runCreate (calls t) stages current)

end RabiRoute.ThreadCreation
