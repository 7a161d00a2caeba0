import RabiRoute.ThreadCreation.ReservationTurns

/-!
# One creation at a time

Where the answers come in time, every creation after the first is justified, and what was completed stays.
-/

namespace RabiRoute.ThreadCreation

open Interleave
open Transitions

section

variable {calls : CallId → CreateParams} {clock : Nat → Int} {t : CallId} {s₀ s : Store}

/-! ## Answers -/

/-- What a call writes over the reservation is no completed one's loss. -/
theorem KeepsCompleted.none {file : ReservationFile} {state : CodexThreadCreationState}
    {result : Option CodexThreadCreateResult} (h : KeepsCompleted file (some (state, result)))
    (hstate : state ≠ .completed) (earlier : CodexThreadCreateResult) : ¬CompletedWith file earlier :=
  fun hearlier => hstate (congrArg Prod.fst (h earlier hearlier _ rfl))

theorem KeepsCompleted.same {file : ReservationFile} {result : CodexThreadCreateResult}
    (h : KeepsCompleted file (some (.completed, some result))) (earlier : CodexThreadCreateResult)
    (hearlier : CompletedWith file earlier) : result = earlier :=
  Option.some.inj (congrArg Prod.snd (h earlier hearlier _ rfl))

/-- What the log says when `create` settles. -/
theorem Kept.settled (hs : Sound calls s) (outcome : Except CreateFailure CodexThreadCreateResult) :
    Kept calls t s (settled calls t outcome s) := by
  have h : Kept calls t s s := .refl hs
  cases outcome with
  | ok result => exact h
  | error failure =>
    unfold ThreadCreation.settled
    dsimp only
    by_cases hnotStarted : (calls t).callerIntent.isSome && failure.metadataNotStarted
    · rw [if_pos hnotStarted]
      exact h.note (.notStarted t) (fun hlog => hlog) rfl
    · rw [if_neg hnotStarted]
      exact h

/-- `create` settles in a call that holds its creation. -/
theorem finishCreation_ok (hs : Sound calls s) {current : CodexThreadCreationReservation}
    (howned : Owned calls current) (outcome : Except CreateFailure CodexThreadCreateResult)
    (hlast : (calls t).callerIntent ≠ none → (attempts s.log).head? = some t)
    (hkeep : KeepsCompleted s.file (written (calls t) (clock s.ticks) (.settlement current)
      (.created (.settled outcome)))) :
    TurnOk calls clock t s (finishCreation (calls t) current outcome) (settled calls t outcome s) := by
  have hkept : Kept calls t s (settled calls t outcome s) := .settled hs outcome
  cases outcome with
  | ok result =>
    unfold finishCreation
    unfold written at hkeep
    dsimp only at hkeep ⊢
    cases hother : otherTask (calls t) current result with
    | true =>
      rw [hother, if_pos rfl] at hkeep
      refine failCreation_ok hkept howned _ (hkeep.none (by decide)) fun hnotStarted => ?_
      rw [Bool.and_false] at hnotStarted
      cases hnotStarted
    | false =>
      rw [hother, if_neg Bool.false_ne_true] at hkeep
      exact completeCreation_ok hkept howned result hkeep.same
  | error failure =>
    unfold written at hkeep
    dsimp only at hkeep
    have hnone : ∀ earlier, ¬CompletedWith s.file earlier := by
      by_cases hnotStarted : (calls t).callerIntent.isSome && failure.metadataNotStarted
      · rw [if_pos hnotStarted] at hkeep
        exact hkeep.none (by decide)
      · rw [if_neg hnotStarted] at hkeep
        exact hkeep.none (by decide)
    refine failCreation_ok hkept howned failure hnone fun hnotStarted => ?_
    have hintent : (calls t).callerIntent ≠ none := by
      rw [Bool.and_eq_true] at hnotStarted
      exact Option.isSome_iff_ne_none.mp hnotStarted.1
    have hhead := hlast hintent
    refine ⟨⟨.inr (.inr hhead), hnone⟩, ?_⟩
    -- the log says that the last creation was not started
    rw [show settled calls t (.error failure) s = s.note (.notStarted t) from if_pos hnotStarted]
    intro last hlast
    obtain rfl := Option.some.inj (hhead.symm.trans hlast)
    exact .inl List.mem_cons_self

/-- A call gets the answer that it awaits. -/
theorem answer_ok {c : Command} {k : c.Answer → Prog CodexThreadCreateResult} {choice : Choice} {r : c.Answer} (hs :
    Sound calls s₀) (hwaits : Waits calls t s₀ (.step c k)) (hanswer : answer calls t c choice s₀ = some (r, s)) (hkeep
    : KeepsCompleted s₀.file (written (calls t) (clock s₀.ticks) c choice)) (hmissing : StillMissing s₀ t c choice) :
    TurnOk calls clock t s₀ (k r) s := by
  generalize hp : Program.step c k = p at hwaits
  cases hwaits with
  | returned result => cases hp
  | raised error => cases hp
  | recovery reservation howned hintent hnew =>
    cases hp
    cases choice with
    | confirmed confirmed => cases hanswer
    | created event => cases hanswer
    | recovered recovered =>
      have hkept : Kept calls t s₀ s₀ := .refl hs
      cases recovered with
      | error message =>
        cases hanswer
        exact TurnOk.raise hkept _
      | ok recovered =>
        cases recovered with
        | none =>
          cases hanswer
          refine checkStale_ok hkept howned (fun hstale => ?_) (absurd · hintent)
          unfold written at hkeep
          dsimp only at hkeep
          rw [if_pos hstale] at hkeep
          exact hkeep.none (by decide)
        | some recovered =>
          cases hanswer
          refine completeRecovered_ok hkept howned recovered fun hother => ?_
          unfold written at hkeep
          dsimp only at hkeep
          rw [hother, if_neg Bool.false_ne_true] at hkeep
          exact hkeep.same
  | confirmation reservation now howned hnone hnew hseen =>
    cases hp
    cases choice with
    | recovered recovered => cases hanswer
    | created event => cases hanswer
    | confirmed confirmed =>
      have hkept : Kept calls t s₀ s₀ := .refl hs
      cases confirmed with
      | error evidenceError =>
        cases hanswer
        exact markUncertain_ok hkept howned now evidenceError (hkeep.none (by decide))
      | ok confirmed =>
        cases confirmed with
        | false =>
          cases hanswer
          exact markUncertain_ok hkept howned now [] (hkeep.none (by decide))
        | true =>
          obtain ⟨c, hc, hlast⟩ := hseen.2 hmissing.symm
          unfold answer at hanswer
          dsimp only at hanswer
          rw [hc] at hanswer
          cases hanswer
          refine recreateMissing_ok (hkept.note (.foundMissing c) (fun hlog => hlog) rfl) howned now
            ⟨.inl hnone, hkeep.none (by decide)⟩ (fun last hhead => ?_) hnew rfl
          obtain rfl | hreleased := hlast last hhead
          · exact .inr List.mem_cons_self
          · exact hreleased.cons _
  | creation stages current howned hheld =>
    cases stages with
    | zero =>
      have hp : Program.step c k = .step (.settlement current) fun outcome =>
        finishCreation (calls t) current outcome := hp
      cases hp
      cases choice with
      | recovered recovered => cases hanswer
      | confirmed confirmed => cases hanswer
      | created event =>
        cases event with
        | stage stage threadId => cases hanswer
        | settled outcome =>
          cases hanswer
          exact finishCreation_ok hs howned _ (fun hintent => (hheld hintent).1) hkeep
    | succ stages =>
      have hp : Program.step c k = .step (.creation current) fun event => _ := hp
      cases hp
      cases choice with
      | recovered recovered => cases hanswer
      | confirmed confirmed => cases hanswer
      | created event =>
        cases event with
        | stage stage threadId =>
          cases hanswer
          exact stage_ok (.refl hs) howned stages stage threadId
            (hkeep.none (by cases stage <;> decide)) fun hintent => (hheld hintent).1
        | settled outcome =>
          cases hanswer
          exact finishCreation_ok hs howned outcome (fun hintent => (hheld hintent).1) hkeep

/-! ## Between the turns -/

structure Settled (calls : CallId → CreateParams) (cfg : State) : Prop where
  sound : Sound calls cfg.shared
  idle : ∀ t, cfg.calls t = .idle → t ∉ attempts cfg.shared.log
  live : ∀ t p, cfg.calls t = .live p → Waits calls t cfg.shared p

theorem settled_initial : Settled calls initial := by
  refine ⟨⟨trivial, (fun r hr => by cases hr), (fun _ last hlast => by cases hlast), fun r hr => by cases hr⟩, ?_, ?_⟩
  · intro t _ ht
    cases ht
  · intro t p hp
    cases hp

theorem not_attempted {u : CallId} (h : Kept calls t s₀ s) (hu : u ≠ t) (hnew : u ∉ attempts s₀.log) :
    u ∉ attempts s.log := by
  obtain hsame | hmore := h.attempted
  · rwa [hsame]
  · rw [hmore, List.mem_cons, not_or]
    exact ⟨hu, hnew⟩

theorem SeenLast.kept {u : CallId} (hseen : SeenLast s₀ u) (h : Kept calls t s₀ s) (hu : u ≠ t) : SeenLast s u := by
  unfold SeenLast
  rw [h.seen u hu]
  obtain hsame | hmore := h.attempted
  · rw [hsame]
    refine ⟨hseen.1, fun hcount => ?_⟩
    obtain ⟨c, hc, hlast⟩ := hseen.2 hcount
    obtain ⟨more, hgrown⟩ := h.grown
    refine ⟨c, hc, fun last hhead => (hlast last hhead).imp_right fun hreleased => ?_⟩
    rw [hgrown]
    exact hreleased.append more
  · -- somebody created since
    have hle := hseen.1
    rw [hmore, List.length_cons]
    refine ⟨by omega, fun hcount => ?_⟩
    omega

/-- What a call awaits is what it awaited before the turn of another. -/
theorem Waits.kept {u : CallId} {p : Prog CodexThreadCreateResult} (hmode : (calls u).callerIntent ≠ none → (calls
    t).callerIntent ≠ none) (hwaits : Waits calls u s₀ p) (h : Kept calls t s₀ s) (hu : u ≠ t) : Waits calls u s p := by
  cases hwaits with
  | returned result => exact .returned result
  | raised error => exact .raised error
  | recovery reservation howned hintent hnew =>
    exact .recovery reservation howned hintent (not_attempted h hu hnew)
  | confirmation reservation now howned hnone hnew hseen =>
    exact .confirmation reservation now howned hnone (not_attempted h hu hnew) (hseen.kept h hu)
  | creation stages current howned hheld =>
    refine .creation stages current howned fun hintent => ?_
    obtain ⟨hlast, hfree⟩ := hheld hintent
    obtain ⟨hsame, hheld⟩ := h.held (hmode hintent) hfree fun ht => hu (Option.some.inj (hlast.symm.trans ht))
    exact ⟨hsame ▸ hlast, hheld⟩

/-- A call that outlives its process has ended. -/
theorem waits_buried {u : CallId} {call : Call Command Command.Answer CreationError CodexThreadCreateResult}
    {p : Prog CodexThreadCreateResult} (h : Thread.bury call = .live p) : Waits calls u s p := by
  cases call with
  | idle => cases h
  | dead => cases h
  | live q =>
    cases q with
    | ret result =>
      cases h
      exact .returned result
    | raise error =>
      cases h
      exact .raised error
    | step c k => cases h

theorem idle_of_buried {call : Call Command Command.Answer CreationError CodexThreadCreateResult}
    (h : Thread.bury call = .idle) : call = .idle := by
  cases call with
  | idle => rfl
  | dead => cases h
  | live q =>
    cases q with
    | ret result => cases h
    | raise error => cases h
    | step c k => cases h

/-- A caller's key is no other key. -/
theorem intent_of_key {params params' : CreateParams} (hkey : creationKey params = creationKey params')
    (hintent : params.callerIntent ≠ none) : params'.callerIntent ≠ none := by
  intro hnone
  unfold creationKey at hkey
  cases hparams : params.callerIntent with
  | none => exact hintent hparams
  | some callerIntent =>
    rw [hparams, hnone] at hkey
    cases congrArg List.length hkey

/-- A turn that can be taken keeps the store sound. -/
theorem turn_ok {cfg : State} {turn : Turn CallId Choice} {p : Prog CodexThreadCreateResult} (h : Settled calls cfg)
    (hok : Undisturbed calls clock cfg turn) (hopen : (thread calls clock).opening (main calls) cfg turn = some (p, s))
    : TurnOk calls clock turn.caller cfg.shared p s := by
  obtain ⟨t, rfl, hidle, rfl, rfl⟩ | ⟨t, choice, c, k, r, rfl, hlive, -, hanswer, rfl⟩ := Thread.opening_cases hopen
  · exact main_ok h.sound (h.idle t hidle)
  · unfold Undisturbed at hok
    dsimp only at hok
    rw [hlive] at hok
    exact answer_ok h.sound (h.live t _ hlive) hanswer hok.1 hok.2

/-- What one round keeps. -/
theorem round_kept {cfg cfg' : State} {round : Round CallId Choice} {a : Unit}
    (hkey : ∀ t u, creationKey (calls t) = creationKey (calls u)) (h : Settled calls cfg)
    (hok : InTime calls clock round cfg) (hstep : (system calls clock).step round cfg = some (a, cfg')) :
    Settled calls cfg' ∧ ∀ result, CompletedWith cfg.shared.file result → CompletedWith cfg'.shared.file result := by
  have hmode (t u : CallId) : (calls u).callerIntent ≠ none → (calls t).callerIntent ≠ none :=
    intent_of_key (hkey u t)
  obtain ⟨turn, p, s, rfl, hopen, rfl⟩ | ⟨rfl, rfl⟩ | ⟨turn, n, p, s, rfl, hopen, rfl⟩ :=
    Thread.next_cases (Thread.next_of_step hstep)
  · obtain ⟨hkept, hwaits⟩ := (turn_ok h hok hopen).advance
    refine ⟨⟨hkept.sound, fun u hu => ?_, fun u q hq => ?_⟩, hkept.completed⟩
    · dsimp only at hu
      by_cases hcaller : u = turn.caller
      · rw [if_pos hcaller] at hu
        cases hu
      · rw [if_neg hcaller] at hu
        exact not_attempted hkept hcaller (h.idle u hu)
    · dsimp only at hq
      by_cases hcaller : u = turn.caller
      · rw [if_pos hcaller] at hq
        cases hq
        rw [hcaller]
        exact hwaits
      · rw [if_neg hcaller] at hq
        exact (h.live u q hq).kept (hmode _ _) hkept hcaller
  · refine ⟨⟨h.sound, fun u hu => h.idle u (idle_of_buried hu), fun u q hq => waits_buried hq⟩, fun _ h => h⟩
  · have hkept := (turn_ok h hok hopen).advanceFor n
    refine ⟨⟨hkept.sound, fun u hu => ?_, fun u q hq => ?_⟩, hkept.completed⟩
    · dsimp only at hu
      by_cases hcaller : u = turn.caller
      · rw [if_pos hcaller] at hu
        cases hu
      · rw [if_neg hcaller] at hu
        exact not_attempted hkept hcaller (h.idle u (idle_of_buried hu))
    · dsimp only at hq
      by_cases hcaller : u = turn.caller
      · rw [if_pos hcaller] at hq
        cases hq
      · rw [if_neg hcaller] at hq
        exact waits_buried hq

/-! ## Runs -/

theorem settled_reached {cfg : State} (hkey : ∀ t u, creationKey (calls t) = creationKey (calls u))
    (h : (system calls clock).ReachUnder (InTime calls clock) initial cfg) : Settled calls cfg :=
  h.invariant settled_initial fun _ _ _ _ hsettled hok hstep => (round_kept hkey hsettled hok hstep).1

/-- A call that starts now answers `result`; a caller whose intent is another than that of `owner` is refused. -/
def Answers (calls : CallId → CreateParams) (clock : Nat → Int) (cfg : State) (result : CodexThreadCreateResult)
    (owner t : CallId) : Prop :=
  ∃ cfg', (system calls clock).step (.run (.start t)) cfg = some ((), cfg') ∧
    cfg'.calls t = .live (if (calls t).callerIntent = (calls owner).callerIntent then .ret result
      else .raise .intentConflict)

theorem intentConflict_owned {r : CodexThreadCreationReservation} {owner : CallId}
    (hkey : ∀ t u, creationKey (calls t) = creationKey (calls u))
    (howner : r.key = creationKey (calls owner) ∧ r.callerIntentHash = (calls owner).callerIntent.map (·.hash))
    (t : CallId) : intentConflict (calls t) r = decide ((calls t).callerIntent ≠ (calls owner).callerIntent) := by
  have hsame := hkey t owner
  unfold intentConflict
  rw [howner.1, howner.2, hsame]
  unfold creationKey at hsame
  cases ht : (calls t).callerIntent with
  | none =>
    cases howner : (calls owner).callerIntent with
    | none => rfl
    | some callerIntent => 
        rw [ht, howner] at hsame
        cases congrArg List.length hsame
  | some callerIntent =>
    cases howner : (calls owner).callerIntent with
    | none =>
      rw [ht, howner] at hsame
      cases congrArg List.length hsame
    | some ownerIntent =>
      rw [ht, howner] at hsame
      obtain ⟨key, hash⟩ := callerIntent
      obtain ⟨ownerKey, ownerHash⟩ := ownerIntent
      simp only [List.cons.injEq, and_true, true_and] at hsame
      subst hsame
      simp [eq_comm]

theorem answers_completed {cfg : State} {result : CodexThreadCreateResult} (hkey : ∀ t u, creationKey (calls t) =
    creationKey (calls u)) (h : Settled calls cfg) (hresult : CompletedWith cfg.shared.file result) : ∃ owner, ∀ t,
    cfg.calls t = .idle → Answers calls clock cfg result owner t := by
  obtain ⟨r, hr, hstate, hrresult⟩ := hresult
  obtain ⟨owner, howner⟩ := h.sound.owned r hr
  refine ⟨owner, fun t hidle => ?_⟩
  have hruns : (thread calls clock).Runs t (fun _ => True) (fun p _ => p =
      if (calls t).callerIntent = (calls owner).callerIntent then .ret result else .raise .intentConflict)
      (main calls t) cfg.shared := by
    show (thread calls clock).Runs t _ _ (.step .readReservation fun found => _) _
    refine (runs_sys rfl).mpr ⟨trivial, ?_⟩
    rw [show (exec clock t .readReservation cfg.shared).1 = some r by rw [exec, hr]; rfl]
    dsimp only [Program.handle_ret]
    rw [intentConflict_owned hkey howner t]
    by_cases hintent : (calls t).callerIntent = (calls owner).callerIntent
    · have hanswer : answerExisting (calls t) r = .ret result := by
        unfold answerExisting
        rw [if_pos hstate, hrresult]
        rfl
      rw [decide_eq_false (not_not_intro hintent), if_neg Bool.false_ne_true, if_pos hintent,
        if_pos (by rw [hstate]; decide)]
      show (thread calls clock).Runs t _ _ (answerExisting (calls t) r) _
      rw [hanswer]
      exact ⟨trivial, rfl⟩
    · rw [decide_eq_true hintent, if_pos rfl, if_neg hintent]
      exact ⟨trivial, rfl⟩
  exact ⟨_, Thread.step_start hidle, (if_pos rfl).trans (congrArg Call.live hruns.advance.2)⟩

/-- Where the answers come in time, every `create()` after the first is justified by one before it, and once the
reservation is completed it stays so and every later call answers its result. -/
theorem created_at_most_once {cfg : State} (hkey : ∀ t u, creationKey (calls t) = creationKey (calls u))
    (h : (system calls clock).ReachUnder (InTime calls clock) initial cfg) :
    Justified cfg.shared.log ∧ ∀ result, CompletedWith cfg.shared.file result →
      ∀ cfg', (system calls clock).ReachUnder (InTime calls clock) cfg cfg' →
        CompletedWith cfg'.shared.file result ∧
          ∃ owner, ∀ t, cfg'.calls t = .idle → Answers calls clock cfg' result owner t := by
  refine ⟨(settled_reached hkey h).sound.log.justified, fun result hresult cfg' h' ↦ ?_⟩
  have hkept : Settled calls cfg' ∧ CompletedWith cfg'.shared.file result := by
    apply h'.invariant (And.intro (settled_reached hkey h) hresult)
    intro round mid a next hsettled hok hstep
    obtain ⟨hnext, hcompleted⟩ := round_kept hkey hsettled.1 hok hstep
    exact ⟨hnext, hcompleted result hsettled.2⟩
  exact ⟨hkept.2, answers_completed hkey hkept.1 hkept.2⟩

end

/-! ## Answers that come in time -/

/-- Calls of one title, each of which can confirm that a task is missing. -/
def titleCalls : CallId → CreateParams :=
  fun _ ↦ { title := js "Plan", workspace := js "/work", confirmMissing := true, stages := 0 }

/-- Five minutes between two readings. -/
def slowClock (n : Nat) : Int := defaultStaleCreatingMs * n

def createdTask : CodexThreadCreateResult where
  id := js "thread-1"
  title := js "Plan"
  updatedAt := js "2026-01-01T00:00:00.000Z"
  source := js "desktop"
  initialTurnStatus := .notRequested

instance (file : ReservationFile) (result : CodexThreadCreateResult) : Decidable (CompletedWith file result) :=
  decidable_of_iff (∃ r ∈ file.parse, r.state = .completed ∧ r.result = some result) <| by
    cases file with
    | absent => simp [CompletedWith, ReservationFile.parse]
    | unreadable => simp [CompletedWith, ReservationFile.parse]
    | stored r => simp [CompletedWith, ReservationFile.parse]

/-- The rounds in which nothing is completed yet, and a confirmation comes when nobody has created since. -/
def early (round : Round CallId Choice) (cfg : State) : Bool :=
  match round with
  | .run (.start _) | .die none => true
  | .run (.answer t (.confirmed _)) =>
    decide (cfg.shared.file.parse.map (·.state) ≠ some .completed) &&
      decide ((attempts cfg.shared.log).length = (cfg.shared.seen t).attempts)
  | .run (.answer _ (.created _)) => decide (cfg.shared.file.parse.map (·.state) ≠ some .completed)
  | _ => false

theorem keepsCompleted_of_uncompleted {file : ReservationFile} {w : Option (CodexThreadCreationState × Option
    CodexThreadCreateResult)} (h : file.parse.map (·.state) ≠ some .completed) : KeepsCompleted file w := by
  rintro result ⟨r, rfl, hstate, -⟩
  exact absurd (congrArg some hstate) h

theorem undisturbed_of_uncompleted {calls : CallId → CreateParams} {clock : Nat → Int} {cfg : State} {t : CallId}
    {choice : Choice} (hfile : cfg.shared.file.parse.map (·.state) ≠ some .completed)
    (hcount : ∀ confirmed, choice = .confirmed confirmed →
      (attempts cfg.shared.log).length = (cfg.shared.seen t).attempts) :
    Undisturbed calls clock cfg (.answer t choice) := by
  unfold Undisturbed
  dsimp only
  split
  · refine ⟨keepsCompleted_of_uncompleted hfile, ?_⟩
    unfold StillMissing
    split
    · exact hcount _ rfl
    · trivial
  · trivial

theorem InTime.of_early {calls : CallId → CreateParams} {clock : Nat → Int} {round : Round CallId Choice}
    {cfg : State} (h : early round cfg = true) : InTime calls clock round cfg := by
  unfold early at h
  split at h
  · trivial
  · trivial
  · obtain ⟨hfile, hcount⟩ := Bool.and_eq_true_iff.mp h
    exact undisturbed_of_uncompleted (of_decide_eq_true hfile) fun _ _ => of_decide_eq_true hcount
  · exact undisturbed_of_uncompleted (of_decide_eq_true h) nofun
  · cases h

/-- A process dies in `create`; the next one finds the task missing and creates it. -/
def retried : List (Round CallId Choice) :=
  [.run (.start 0), .die none, .run (.start 1), .run (.answer 1 (.confirmed (.ok true))),
    .run (.answer 1 (.created (.settled (.ok createdTask))))]

theorem created_at_most_once_retried : ∃ cfg,
    (system titleCalls slowClock).ReachUnder (InTime titleCalls slowClock) initial cfg ∧
    attempts cfg.shared.log = [1, 0] ∧ CompletedWith cfg.shared.file createdTask ∧ Justified cfg.shared.log ∧
    ∃ owner, ∀ t, cfg.calls t = .idle → Answers titleCalls slowClock cfg createdTask owner t := by
  have hrun : ((system titleCalls slowClock).runUnder (fun round cfg ↦ early round cfg = true) initial retried).map
      (fun cfg ↦ (attempts cfg.shared.log, decide (CompletedWith cfg.shared.file createdTask))) =
        some ([1, 0], true) := by decide +kernel
  obtain ⟨cfg, hcfg, hboth⟩ := Option.map_eq_some_iff.mp hrun
  obtain ⟨hattempts, hcompleted⟩ := Prod.mk.inj hboth
  have hcompleted := of_decide_eq_true hcompleted
  have hreach : (system titleCalls slowClock).ReachUnder (InTime titleCalls slowClock) initial cfg :=
    (System.runUnder_reach hcfg).mono fun _ _ ↦ InTime.of_early
  obtain ⟨hjustified, hlater⟩ := created_at_most_once (fun _ _ ↦ rfl) hreach
  exact ⟨cfg, hreach, hattempts, hcompleted, hjustified, (hlater createdTask hcompleted cfg .refl).2⟩

/-! ## Late answers -/

/-- Two calls find the creation of a third stale, and both get it confirmed missing. -/
def confirmedTwice : List (Round CallId Choice) :=
  [.run (.start 0), .run (.start 1), .run (.start 2), .run (.answer 1 (.confirmed (.ok true))),
    .run (.answer 2 (.confirmed (.ok true)))]

/-- A call finds a creation stale that completes before the answer comes. -/
def answeredLate : List (Round CallId Choice) :=
  [.run (.start 0), .run (.start 1), .run (.answer 0 (.created (.settled (.ok createdTask))))]

theorem confirmedTwice_log : ((system titleCalls slowClock).run initial confirmedTwice).map (·.shared.log) =
    some [.attempt 2, .foundMissing 0, .attempt 1, .foundMissing 0, .attempt 0] := by
  decide +kernel

theorem not_justified_twice : ¬Justified [.attempt 2, .foundMissing 0, .attempt 1, .foundMissing 0, .attempt 0] := by
  rintro ⟨reason, hreason, hdistinct⟩
  obtain ⟨h1, -⟩ := hreason [.attempt 2, .foundMissing 0] 1 [.foundMissing 0, .attempt 0] rfl (by decide)
  obtain ⟨h2, hreleased⟩ := hreason [] 2 [.foundMissing 0, .attempt 1, .foundMissing 0, .attempt 0] rfl (by decide)
  have hne := hdistinct [] 2 [.foundMissing 0] 1 [.foundMissing 0, .attempt 0] rfl (by decide)
  have h1 : reason 1 = 0 := by simpa [attempts] using h1
  have h2 : reason 2 = 1 ∨ reason 2 = 0 := by simpa [attempts] using h2
  obtain h2 | h2 := h2
  · rw [h2] at hreleased
    exact absurd hreleased (by unfold Released; decide)
  · exact hne (h2.trans h1.symm)

/-- Two calls create for one missing task, and a late answer writes over a completed reservation. -/
theorem created_twice_and_lost :
    (∃ cfg, (system titleCalls slowClock).Reach initial cfg ∧ ¬Justified cfg.shared.log) ∧
    ∃ cfg cfg', (system titleCalls slowClock).Reach initial cfg ∧ CompletedWith cfg.shared.file createdTask ∧
      (system titleCalls slowClock).Reach cfg cfg' ∧ ¬CompletedWith cfg'.shared.file createdTask := by
  refine ⟨?_, ?_⟩
  · obtain ⟨cfg, hrun, hlog⟩ := Option.map_eq_some_iff.mp confirmedTwice_log
    refine ⟨cfg, System.run_reach hrun, ?_⟩
    rw [hlog]
    exact not_justified_twice
  · have hrun : ((system titleCalls slowClock).run initial answeredLate).bind (fun cfg ↦
        ((system titleCalls slowClock).run cfg [.run (.answer 1 (.confirmed (.ok false)))]).map fun cfg' ↦
          (decide (CompletedWith cfg.shared.file createdTask), decide (CompletedWith cfg'.shared.file createdTask))) =
        some (true, false) := by decide +kernel
    obtain ⟨cfg, hcfg, hrest⟩ := Option.bind_eq_some_iff.mp hrun
    obtain ⟨cfg', hcfg', hboth⟩ := Option.map_eq_some_iff.mp hrest
    obtain ⟨hcompleted, hlost⟩ := Prod.mk.inj hboth
    exact ⟨cfg, cfg', System.run_reach hcfg, of_decide_eq_true hcompleted, System.run_reach hcfg',
      of_decide_eq_false hlost⟩

end RabiRoute.ThreadCreation
