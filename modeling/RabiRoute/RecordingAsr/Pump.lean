import RabiRoute.Interleave.EventLoop
import RabiRoute.RecordingAsr.Jobs

/-!
# The pump of the jobs

`RecordingAsrJobs` between the answers of its store, one microtask at a time.  A call runs on from an answer to
its next `await`.  `drain` goes on one microtask after its `run` has settled, the handler of `catch` runs one
microtask after `drain` has settled, and that of `finally` one microtask later.
-/

namespace RabiRoute.RecordingAsr

open Interleave RecordingArchive

/-! ## What a call does -/

inductive Command where
  | create (job : RecordingAsrJob)
  | get (key : JobKey)
  | update (key : JobKey) (revision : Nat) (patch : JobPatch)
  | claim (key : JobKey) (revision now : Nat)
  | finish (lease : RecordingAsrLease) (state : FinishState) (error : JsString) (now : Nat)
  | commitResult (lease : RecordingAsrLease) (result : RecordingAsrResult) (now : Nat)
  | recoverable (cursor : Option JsString)
  | recoverAmbiguous (key : JobKey) (revision now : Nat)
  | resolveSelection
  | transcribeLocal (ref : RecordingAsrRef) (selection : EffectiveAsrSelection) (key : JobKey)
  | clock
  | changed (key : JobKey)
  | isStopped
  | schedule (key : JobKey)
  | setActive (lease : RecordingAsrLease)
  | isAborted
  | clearActive (lease : RecordingAsrLease)
  | stop

def Value : Command → Type
  | .create _ => RecordingAsrJob
  | .get _ => Option RecordingAsrJob
  | .update _ _ _ => Option RecordingAsrJob
  | .claim _ _ _ => Option RecordingAsrLease
  | .finish _ _ _ _ => Bool
  | .commitResult _ _ _ => Bool
  | .recoverable _ => RecoverablePage
  | .recoverAmbiguous _ _ _ => Bool
  | .resolveSelection => AsrSelectionResult
  | .transcribeLocal _ _ _ => Transcription
  | .clock => Nat
  | .changed _ => Unit
  | .isStopped => Bool
  | .schedule _ => Unit
  | .setActive _ => Unit
  | .isAborted => Bool
  | .clearActive _ => Unit
  | .stop => Option RecordingAsrLease

abbrev Reply : Command → Type := Program.Fallible Failure Value

abbrev JobProgram (α : Type) := Program Command Reply Failure α

def perform (c : Command) : JobProgram (Value c) := Program.performOrThrow c

def dependencies : Dependencies Command Reply where
  create job := perform (.create job)
  get key := perform (.get key)
  update key revision patch := perform (.update key revision patch)
  claim key revision now := perform (.claim key revision now)
  finish lease state error now := perform (.finish lease state error now)
  commitResult lease result now := perform (.commitResult lease result now)
  recoverable cursor := perform (.recoverable cursor)
  recoverAmbiguous key revision now := perform (.recoverAmbiguous key revision now)
  resolveSelection := perform .resolveSelection
  transcribeLocal ref selection key := perform (.transcribeLocal ref selection key)
  clock := perform .clock
  changed key := perform (.changed key)
  isStopped := perform .isStopped
  schedule key := perform (.schedule key)
  setActive lease := perform (.setActive lease)
  isAborted := perform .isAborted
  clearActive lease := perform (.clearActive lease)
  stop := perform .stop

/-- The call waits for a promise. -/
def Command.awaits : Command → Bool
  | .create _ | .get _ | .update _ _ _ | .claim _ _ _ | .finish _ _ _ _ | .commitResult _ _ _ | .recoverable _
  | .recoverAmbiguous _ _ _ | .resolveSelection | .transcribeLocal _ _ _ => true
  | .clock | .changed _ | .isStopped | .schedule _ | .setActive _ | .isAborted | .clearActive _ | .stop => false

/-! ## The object -/

/-- What `this.pump` waits for. -/
inductive Pump where
  /-- An answer to `run`. -/
  | running (rest : JobProgram Unit)
  /-- `run` has settled. -/
  | resumed (outcome : Except Failure Unit)
  /-- `drain` has settled. -/
  | settled (outcome : Except Failure Unit)
  /-- `catch` is done. -/
  | caught

structure Active where
  lease : RecordingAsrLease
  aborted : Bool

structure Owner where
  pending : List JobKey
  pump : Option Pump
  stopped : Bool
  active : Option Active
  backgroundError : Option Failure
  now : Nat

/-- The head of the loop of `drain`; `run` awaits its `get` at once. -/
def Owner.drain (s : Owner) : Owner :=
  match s.stopped, s.pending with
  | false, key :: rest => { s with pending := rest, pump := some (.running (run dependencies key)) }
  | _, _ => { s with pump := some (.settled (.ok ())) }

def Owner.schedule (key : JobKey) (s : Owner) : Owner :=
  if s.stopped then s
  else
    let s := { s with pending := if key ∈ s.pending then s.pending else s.pending ++ [key] }
    if s.pump.isSome then s else s.drain

def Owner.stop (s : Owner) : Option RecordingAsrLease × Owner :=
  (s.active.map Active.lease,
    { s with stopped := true, pending := [], active := s.active.map fun active ↦ { active with aborted := true } })

/-- The commands that are not awaited.  An observer that calls back makes calls of its own. -/
def Owner.exec : (c : Command) → Owner → Reply c × Owner
  | .clock, s => (.ok s.now, s)
  | .changed _, s => (.ok (), s)
  | .isStopped, s => (.ok s.stopped, s)
  | .schedule key, s => (.ok (), s.schedule key)
  | .setActive lease, s => (.ok (), { s with active := some ⟨lease, false⟩ })
  | .isAborted, s => (.ok (s.active.elim false Active.aborted), s)
  | .clearActive lease, s =>
    (.ok (), if s.active.map Active.lease = some lease then { s with active := none } else s)
  | .stop, s => (.ok s.stop.1, s.stop.2)
  | .create _, s | .get _, s | .update _ _ _, s | .claim _ _ _, s | .finish _ _ _ _, s | .commitResult _ _ _, s
  | .recoverable _, s | .recoverAmbiguous _ _ _, s | .resolveSelection, s | .transcribeLocal _ _ _, s =>
    (.error (.other []), s)

/-- The answers come from the events. -/
def thread : Thread Owner Command Reply Unit Unit where
  awaits := Command.awaits
  exec _ := Owner.exec
  answer _ _ _ _ := none
  restart s := s

/-! ## Events -/

abbrev CallId := Nat

inductive Request where
  | enqueue (input : RefInput)
  | retry (key : JobKey)
  | recompute (key : JobKey) (processingVersion : JsString)
  | restore (pages : Nat)
  | shutdown

def Request.program (sha : Sha256) : Request → JobProgram Unit
  | .enqueue input => do let _ ← RecordingAsr.enqueue dependencies sha input
  | .retry key => do let _ ← RecordingAsr.retry dependencies key
  | .recompute key processingVersion => do let _ ← RecordingAsr.recompute dependencies sha key processingVersion
  | .restore pages => RecordingAsr.restore dependencies pages
  | .shutdown => RecordingAsr.shutdown dependencies

structure World where
  owner : Owner
  calls : CallId → Option (JobProgram Unit)

inductive Event where
  | call (id : CallId) (request : Request)
  /-- What the call awaits settles, and the call goes on. -/
  | answer (id : CallId) (reply : (c : Command) → Reply c)
  /-- What the running job awaits settles. -/
  | pumpAnswer (reply : (c : Command) → Reply c)
  /-- A microtask of the pump. -/
  | pumpStep
  /-- `idle` takes the error of the pump. -/
  | idle
  | clock (now : Nat)

/-- What the turn of a call runs. -/
def opening (sha : Sha256) (w : World) : Event → Option (CallId × JobProgram Unit)
  | .call id request => if (w.calls id).isNone then some (id, request.program sha) else none
  | .answer id reply =>
    match w.calls id with
    | some (.step c k) => some (id, k (reply c))
    | _ => none
  | _ => none

/-- What a settled `run` leaves to `drain`. -/
def pumpOf : JobProgram Unit → Pump
  | .ret _ => .resumed (.ok ())
  | .raise e => .resumed (.error e)
  | .step c k => .running (.step c k)

def pumpAnswer (reply : (c : Command) → Reply c) (s : Owner) : Option Owner :=
  match s.pump with
  | some (.running (.step c k)) =>
    let turn := thread.advance () (k (reply c)) s
    some { turn.2 with pump := some (pumpOf turn.1) }
  | _ => none

def pumpStep (s : Owner) : Option Owner :=
  match s.pump with
  | some (.resumed (.ok _)) => some s.drain
  | some (.resumed (.error e)) => some { s with pump := some (.settled (.error e)) }
  | some (.settled (.error e)) => some { s with pump := some .caught, backgroundError := some e }
  | some (.settled (.ok _)) => some { s with pump := some .caught }
  | some .caught => some { s with pump := none }
  | _ => none

def system (sha : Sha256) : Transitions.System World Event Unit where
  step e w :=
    match e with
    | .pumpAnswer reply => (pumpAnswer reply w.owner).map fun owner ↦ ((), { w with owner := owner })
    | .pumpStep => (pumpStep w.owner).map fun owner ↦ ((), { w with owner := owner })
    | .idle =>
      if w.owner.pump.isNone then some ((), { w with owner := { w.owner with backgroundError := none } })
      else none
    | .clock now => some ((), { w with owner := { w.owner with now := now } })
    | turn => (opening sha w turn).map fun o ↦
      ((), ⟨(thread.advance () o.2 w.owner).2,
        fun id ↦ if id = o.1 then some (thread.advance () o.2 w.owner).1 else w.calls id⟩)

def init (now : Nat) : World := ⟨⟨[], none, false, none, none, now⟩, fun _ ↦ none⟩

/-! ## What is left behind -/

/-- The pump has taken its last look at `pending`. -/
def closing : Option Pump → Bool
  | some (.settled _) => true
  | some .caught => true
  | _ => false

def Command.isSchedule : Command → Bool
  | .schedule _ => true
  | _ => false

/-- The turn schedules a key. -/
def schedules : JobProgram Unit → Owner → Bool
  | .step c k, s =>
    if c.awaits then false else c.isSchedule || schedules (k (Owner.exec c s).1) (Owner.exec c s).2
  | _, _ => false

/-- A job has failed while others are pending. -/
def failsEarly : Event → Owner → Bool
  | .pumpStep, s =>
    match s.pump with
    | some (.resumed (.error _)) => !s.stopped && !s.pending.isEmpty
    | _ => false
  | _, _ => false

/-- Nothing is scheduled between the last look of the pump and its reset, and no job fails before the last one. -/
def timely (sha : Sha256) (e : Event) (w : World) : Bool :=
  ((opening sha w e).all fun o ↦ !(closing w.owner.pump && !w.owner.stopped && schedules o.2 w.owner)) &&
    !failsEarly e w.owner

/-- Without a pump, and behind the last look of the pump, nothing is pending. -/
def Drained (s : Owner) : Prop := (s.pump = none ∨ closing s.pump = true) → s.stopped = false → s.pending = []

theorem drained_drain (s : Owner) : Drained s.drain := by
  unfold Owner.drain
  split
  · intro h _
    cases h with
    | inl h => cases h
    | inr h => cases h
  · rename_i h
    intro _ hstopped
    cases hpending : s.pending with
    | nil => rfl
    | cons key rest => exact absurd hpending (h key rest hstopped)

/-- What a command that is not awaited does to the object. -/
theorem exec_cases (c : Command) (s : Owner) :
    ((Owner.exec c s).2.pump = s.pump ∧ (Owner.exec c s).2.stopped = s.stopped ∧
      (Owner.exec c s).2.pending = s.pending) ∨
    (c = .stop ∧ (Owner.exec c s).2 = s.stop.2) ∨ ∃ key, c = .schedule key ∧ (Owner.exec c s).2 = s.schedule key := by
  cases c with
  | schedule key => exact .inr (.inr ⟨key, rfl, rfl⟩)
  | stop => exact .inr (.inl ⟨rfl, rfl⟩)
  | clearActive lease =>
    refine .inl ?_
    unfold Owner.exec
    dsimp only
    split <;> exact ⟨rfl, rfl, rfl⟩
  | _ => exact .inl ⟨rfl, rfl, rfl⟩

/-- Where the pump is not behind its last look, a key can be scheduled, and the pump is not so afterwards. -/
theorem schedule_drained {s : Owner} (key : JobKey) (h : Drained s)
    (hopen : closing s.pump = true → s.stopped = true) :
    Drained (s.schedule key) ∧
      (closing (s.schedule key).pump = true → (s.schedule key).stopped = false → False) := by
  unfold Owner.schedule
  by_cases hstopped : s.stopped
  · rw [if_pos hstopped]
    exact ⟨h, fun _ hrun => absurd (hstopped.symm.trans hrun) (by decide)⟩
  rw [if_neg hstopped]
  dsimp only
  cases hpump : s.pump with
  | some pump =>
    rw [hpump] at hopen
    rw [if_pos (show (some pump).isSome = true from rfl)]
    have hclosing : closing (some pump) = false := Bool.eq_false_iff.mpr fun hc => hstopped (hopen hc)
    refine ⟨fun hdrained _ => ?_, fun hc _ => ?_⟩
    · rw [hclosing] at hdrained
      obtain hdrained | hdrained := hdrained <;> cases hdrained
    · rw [hclosing] at hc
      cases hc
  | none =>
    rw [if_neg (show ¬(none : Option Pump).isSome = true from Bool.false_ne_true), h (.inl hpump) (Bool.eq_false_iff.mpr hstopped)]
    refine ⟨drained_drain _, ?_⟩
    unfold Owner.drain
    rw [if_neg List.not_mem_nil, List.nil_append, Bool.eq_false_iff.mpr hstopped]
    intro hc
    cases hc

/-- A turn that schedules nothing behind the last look of the pump. -/
theorem advance_drained {p : JobProgram Unit} {s : Owner} (h : Drained s) (hquiet : closing s.pump = true → s.stopped =
    false → schedules p s = false) : Drained (thread.advance () p s).2 := by
  induction p generalizing s with
  | ret a => exact h
  | raise e => exact h
  | step c k ih =>
    unfold Thread.advance
    show Drained (if c.awaits then _ else _ : JobProgram Unit × Owner).2
    unfold schedules at hquiet
    by_cases hc : c.awaits
    · rw [if_pos hc]
      exact h
    rw [if_neg hc]
    simp only [if_neg hc, Bool.or_eq_false_iff] at hquiet
    show Drained (thread.advance () (k (Owner.exec c s).1) (Owner.exec c s).2).2
    obtain ⟨hpump, hstopped, hpending⟩ | ⟨-, hstop⟩ | ⟨key, rfl, hschedule⟩ := exec_cases c s
    · apply ih
      · intro hdrained
        rw [hpump, hstopped, hpending] at *
        exact h hdrained
      · rw [hpump, hstopped]
        exact fun hclosing hrun => (hquiet hclosing hrun).2
    · have hstopped : (Owner.exec c s).2.stopped = true := by rw [hstop]; rfl
      apply ih
      · intro _ hrun
        rw [hstopped] at hrun
        cases hrun
      · intro _ hrun
        rw [hstopped] at hrun
        cases hrun
    · have hopen : closing s.pump = true → s.stopped = true := by
        intro hclosing
        by_contra hrun
        have hfalse : true = false := (hquiet hclosing (Bool.eq_false_iff.mpr hrun)).1
        cases hfalse
      obtain ⟨hdrained, hnot⟩ := schedule_drained key h hopen
      rw [hschedule]
      exact ih _ hdrained fun hclosing hrun => (hnot hclosing hrun).elim

theorem pumpStep_drained {s s' : Owner} (h : Drained s) (htimely : failsEarly .pumpStep s = false)
    (hstep : pumpStep s = some s') : Drained s' := by
  unfold pumpStep at hstep
  split at hstep
  · exact Option.some.inj hstep ▸ drained_drain s
  · rename_i e hpump
    rw [← Option.some.inj hstep]
    intro _ hrun
    simp only [failsEarly, hpump] at htimely
    have hrun : s.stopped = false := hrun
    rw [hrun, Bool.not_false, Bool.true_and, Bool.not_eq_false', List.isEmpty_iff] at htimely
    exact htimely
  · rename_i hpump
    rw [← Option.some.inj hstep]
    exact fun _ hrun => h (.inr (by rw [hpump]; rfl)) hrun
  · rename_i hpump
    rw [← Option.some.inj hstep]
    exact fun _ hrun => h (.inr (by rw [hpump]; rfl)) hrun
  · rename_i hpump
    rw [← Option.some.inj hstep]
    exact fun _ hrun => h (.inr (by rw [hpump]; rfl)) hrun
  · cases hstep

theorem pumpAnswer_drained {s s' : Owner} {reply : (c : Command) → Reply c}
    (hstep : pumpAnswer reply s = some s') : Drained s' := by
  unfold pumpAnswer at hstep
  split at hstep
  · rename_i c k _
    rw [← Option.some.inj hstep]
    have hopen (p : JobProgram Unit) : closing (some (pumpOf p)) = false := by
      cases p with
      | ret a => rfl
      | raise e => rfl
      | step c k => rfl
    intro hdrained _
    obtain hdrained | hdrained := hdrained
    · cases hdrained
    · exact absurd ((hopen _).symm.trans hdrained) Bool.false_ne_true
  · cases hstep

theorem step_drained {sha : Sha256} {e : Event} {w w' : World} {a : Unit} (h : Drained w.owner)
    (htimely : timely sha e w = true) (hstep : (system sha).step e w = some (a, w')) : Drained w'.owner := by
  obtain ⟨hlate, hearly⟩ := Bool.and_eq_true_iff.mp htimely
  have hturn {turn : Event} (hlate : ((opening sha w turn).all fun o =>
      !(closing w.owner.pump && !w.owner.stopped && schedules o.2 w.owner)) = true)
      (hstep : (opening sha w turn).map (fun o => ((), World.mk (thread.advance () o.2 w.owner).2
        fun id => if id = o.1 then some (thread.advance () o.2 w.owner).1 else w.calls id)) = some (a, w')) :
      Drained w'.owner := by
    obtain ⟨o, ho, heq⟩ := Option.map_eq_some_iff.mp hstep
    obtain rfl := (Prod.mk.inj heq).2
    apply advance_drained h
    intro hclosing hrun
    rw [ho, Option.all_some, hclosing, hrun] at hlate
    simpa using hlate
  cases e with
  | pumpAnswer reply =>
    obtain ⟨owner, howner, heq⟩ := Option.map_eq_some_iff.mp hstep
    obtain rfl := (Prod.mk.inj heq).2
    exact pumpAnswer_drained howner
  | pumpStep =>
    obtain ⟨owner, howner, heq⟩ := Option.map_eq_some_iff.mp hstep
    obtain rfl := (Prod.mk.inj heq).2
    exact pumpStep_drained h (by simpa using hearly) howner
  | idle =>
    simp only [system] at hstep
    split at hstep
    · obtain rfl := (Prod.mk.inj (Option.some.inj hstep)).2
      exact h
    · cases hstep
  | clock now =>
    obtain rfl := (Prod.mk.inj (Option.some.inj hstep)).2
    exact h
  | call id request => exact hturn hlate hstep
  | answer id reply => exact hturn hlate hstep

/-- In a run whose steps are all timely, no job is left behind. -/
theorem no_job_left (sha : Sha256) (now : Nat) {w : World}
    (h : (system sha).ReachUnder (fun e w ↦ timely sha e w = true) (init now) w) (hpump : w.owner.pump = none)
    (hstopped : w.owner.stopped = false) : w.owner.pending = [] := by
  have hdrained : Drained w.owner :=
    h.invariant (P := fun w ↦ Drained w.owner) (fun _ _ ↦ rfl) fun e w a w' hw hok hstep ↦ step_drained hw hok hstep
  exact hdrained (.inl hpump) hstopped

/-! ## Runs that leave a job -/

/-- A hash function of one value. -/
def zeroHash : Sha256 where
  ofText _ := List.replicate 64 48
  ofBytes _ := List.replicate 64 48
  isHash_ofText _ := by decide
  isHash_ofBytes _ := by decide

/-- A job of a recording of a second. -/
def sampleJob (key : JobKey) (state : RecordingAsrState) : RecordingAsrJob where
  jobKey := key
  ref := {
    owner := js "phone"
    manifest := {
      recordId := js "record"
      captureId := js "capture"
      eventId := js "event"
      deviceId := js "phone"
      source := .phone
      startedAt := 1000
      endedAt := 2000
      timeBasis := .received
      segments := [⟨0, 32000, List.replicate 64 48, 1000⟩]
      objects := [⟨List.replicate 64 48, 32000, 0⟩]
      gaps := []
      processingPolicy := .transcribe
      totalBytes := 32000 }
    receipt := {
      workerId := js "worker"
      storageNamespaceId := js "00000000-0000-0000-0000-000000000001"
      recordId := js "record"
      manifestHash := List.replicate 64 48
      totalBytes := 32000
      segmentCount := 1
      committedAt := 3000 }
    processingVersion := js "v1" }
  revision := 1
  state := state
  attempt := 0
  updatedAt := 4000

def keyA : JobKey := List.replicate 64 97
def keyB : JobKey := List.replicate 64 98

/-- Answers of a store: a page of queued jobs, a failed job, a job that was put back. -/
def answers (queued : List JobKey) : (c : Command) → Reply c
  | .recoverable _ => .ok ⟨queued.map (sampleJob · .queued), none⟩
  | .get key => .ok (some (sampleJob key .failed))
  | .update key _ _ => .ok (some (sampleJob key .queued))
  | _ => .error (.other (js "EIO"))

/-- The answer of a store that fails. -/
def rejection (c : Command) : Reply c := .error (.other (js "EIO"))

/-- Both jobs are restored, the store fails for the first, and the pump is reset. -/
def failingRun : List Event :=
  [.call 0 (.restore 1), .answer 0 (answers [keyA, keyB]), .pumpAnswer rejection, .pumpStep, .pumpStep, .pumpStep]

/-- The second job is put back between the last look of the pump and its reset. -/
def lateRun : List Event :=
  [.call 0 (.restore 1), .answer 0 (answers [keyA]), .call 1 (.retry keyB), .answer 1 (answers []),
    .pumpAnswer (answers []), .pumpStep, .answer 1 (answers []), .pumpStep, .pumpStep]

/-- The run ends without a pump and with a job pending. -/
def Leaves (events : List Event) (key : JobKey) : Prop :=
  ∃ w, (system zeroHash).run (init 0) events = some w ∧
    w.owner.pump = none ∧ w.owner.stopped = false ∧ w.owner.pending = [key]

theorem leaves_of_run {events : List Event} {key : JobKey}
    (h : ((system zeroHash).run (init 0) events).map (fun w =>
      (w.owner.pump.isNone, w.owner.stopped, w.owner.pending)) = some (true, false, [key])) : Leaves events key := by
  obtain ⟨w, hw, heq⟩ := Option.map_eq_some_iff.mp h
  obtain ⟨hpump, heq⟩ := Prod.mk.inj heq
  obtain ⟨hstopped, hpending⟩ := Prod.mk.inj heq
  exact ⟨w, hw, Option.isNone_iff_eq_none.mp hpump, hstopped, hpending⟩

theorem job_left : Leaves failingRun keyB ∧ Leaves lateRun keyB :=
  ⟨leaves_of_run rfl, leaves_of_run rfl⟩

/-- A job that is restored and run. -/
def quietRun : List Event :=
  [.call 0 (.restore 1), .answer 0 (answers [keyA]), .pumpAnswer (answers []), .pumpStep, .pumpStep, .pumpStep]

theorem no_job_left_restored : ∃ w,
    (system zeroHash).ReachUnder (fun e w ↦ timely zeroHash e w = true) (init 0) w ∧ w.owner.pending = [] := by
  have h : ((system zeroHash).runUnder (fun e w ↦ timely zeroHash e w = true) (init 0) quietRun).map (fun w ↦
      (w.owner.pump.isNone, w.owner.stopped)) = some (true, false) := rfl
  obtain ⟨w, hw, heq⟩ := Option.map_eq_some_iff.mp h
  obtain ⟨hpump, hstopped⟩ := Prod.mk.inj heq
  have hreach := Transitions.System.runUnder_reach hw
  exact ⟨w, hreach, no_job_left zeroHash 0 hreach (Option.isNone_iff_eq_none.mp hpump) hstopped⟩

end RabiRoute.RecordingAsr
