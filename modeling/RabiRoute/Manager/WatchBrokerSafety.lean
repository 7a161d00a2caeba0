import RabiRoute.Manager.WatchBroker

/-!
# One attempt at a time, and no refresh forgotten

`Safe` holds of the broker between any two callbacks; from it follow what an attempt waits for, what is pending,
and when the broker is closed.
-/

open Transitions

namespace RabiRoute.WatchBroker

namespace ManagerWatchBroker

variable {b b' : ManagerWatchBroker} {options : Options} {attempt i j : Nat} {a a' : Attempt}

theorem attempts_setAttempt {f : Attempt → Attempt} (h : (b.setAttempt i f).attempts[j]? = some a') :
    ∃ a, b.attempts[j]? = some a ∧ a' = if i = j then f a else a := by
  unfold setAttempt at h
  rw [List.getElem?_modify] at h
  obtain ⟨a, ha, hf⟩ := Option.map_eq_some_iff.mp h
  exact ⟨a, ha, hf.symm⟩

theorem attempts_setAttempt_of (f : Attempt → Attempt) (h : b.attempts[j]? = some a) :
    (b.setAttempt i f).attempts[j]? = some (if i = j then f a else a) := by
  unfold setAttempt
  rw [List.getElem?_modify, h]
  rfl

/-- The attempt that blocks, and the callback that its closing will run. -/
def Blocks (b : ManagerWatchBroker) (attempt : Nat) : Prop :=
  b.terminationBlockedAttempt = some attempt ∧
    ∃ a, b.attempts[attempt]? = some a ∧ a.closedHandler = .registered

def AllClosed (b : ManagerWatchBroker) : Prop := ∀ (i : Nat) (a : Attempt), b.attempts[i]? = some a → a.closed = true

structure Safe (b : ManagerWatchBroker) : Prop where
  runs : b.running = true ↔ b.refresh ≠ .idle
  active : ∀ (i : Nat) (a : Attempt), b.attempts[i]? = some a → a.closed = false → b.activeAttempt = some i
  held : b.closedFlag = false → ∀ (i : Nat) (a : Attempt), b.attempts[i]? = some a → a.closed = false →
    b.refresh.attempt = some i ∨ b.terminationBlockedAttempt = some i
  current : ∀ i, b.refresh.attempt = some i → b.activeAttempt = some i ∨ b.activeAttempt = none
  fresh : b.closedFlag = false → ∀ i, b.refresh.attempt = some i →
    ∃ a, b.attempts[i]? = some a ∧ a.closedHandler = .absent
  blocked : ∀ i, b.terminationBlockedAttempt = some i → b.activeAttempt = some i ∨ b.activeAttempt = none
  registered : b.closedFlag = false → ∀ i, b.terminationBlockedAttempt = some i → b.Blocks i
  completing : ∀ i, b.closeCompletion = some i →
    b.closedFlag = true ∧ (b.activeAttempt = some i ∨ b.activeAttempt = none)
  confirmed : ∀ (i : Nat) (a : Attempt), b.attempts[i]? = some a → a.termination = .done true → a.closed = true
  closed : b.currentStatus.state = .closed → b.closedFlag = true ∧ b.AllClosed

theorem safe_initial : Safe .initial where
  runs := ⟨fun h => (by cases h), fun h => absurd rfl h⟩
  active := fun _ _ h => by cases h
  held := fun _ _ _ h => by cases h
  current := fun _ h => by cases h
  fresh := fun _ _ h => by cases h
  blocked := fun _ h => by cases h
  registered := fun _ _ h => by cases h
  completing := fun _ h => by cases h
  confirmed := fun _ _ h => by cases h
  closed := fun h => by cases h

/-! ## What the callbacks keep -/

theorem Safe.setAttempt {f : Attempt → Attempt} (h : b.Safe) (hclosed : ∀ a, (f a).closed = false → a.closed = false)
    (hhandler : ∀ a, (f a).closedHandler = a.closedHandler)
    (hconfirmed : ∀ a, b.attempts[i]? = some a → (f a).termination = .done true →
      (f a).closed = true ∨ a.termination = .done true) :
    (b.setAttempt i f).Safe := by
  have hopen : ∀ (j : Nat) (a' : Attempt), (b.setAttempt i f).attempts[j]? = some a' → a'.closed = false →
      ∃ a : Attempt, b.attempts[j]? = some a ∧ a.closed = false := by
    intro j a' ha' hfalse
    obtain ⟨a, ha, rfl⟩ := attempts_setAttempt ha'
    refine ⟨a, ha, ?_⟩
    split at hfalse
    · exact hclosed a hfalse
    · exact hfalse
  have hstill : ∀ (j : Nat) (handler : ClosedHandler), (∃ a : Attempt, b.attempts[j]? = some a ∧ a.closedHandler = handler) →
      ∃ a : Attempt, (b.setAttempt i f).attempts[j]? = some a ∧ a.closedHandler = handler := by
    rintro j handler ⟨a, ha, hh⟩
    refine ⟨_, attempts_setAttempt_of f ha, ?_⟩
    split
    · rw [hhandler, hh]
    · exact hh
  exact {
    runs := h.runs
    active := fun j a' ha' hfalse =>
      have ⟨a, ha, hopened⟩ := hopen j a' ha' hfalse
      h.active j a ha hopened
    held := fun hflag j a' ha' hfalse =>
      have ⟨a, ha, hopened⟩ := hopen j a' ha' hfalse
      h.held hflag j a ha hopened
    current := h.current
    fresh := fun hflag j hj => hstill j _ (h.fresh hflag j hj)
    blocked := h.blocked
    registered := fun hflag j hj => ⟨hj, hstill j _ (h.registered hflag j hj).2⟩
    completing := h.completing
    confirmed := by
      intro j a' ha' hdone
      by_contra hfalse
      obtain ⟨a, ha, rfl⟩ := attempts_setAttempt ha'
      by_cases hij : i = j
      · subst hij
        rw [if_pos rfl] at hdone hfalse
        obtain hnow | hbefore := hconfirmed a ha hdone
        · exact hfalse hnow
        · have := h.confirmed i a ha hbefore
          rw [hclosed a (by simpa using hfalse)] at this
          cases this
      · rw [if_neg hij] at hdone hfalse
        exact hfalse (h.confirmed j a ha hdone)
    closed := by
      intro hstate
      refine ⟨(h.closed hstate).1, fun j a' ha' => ?_⟩
      by_contra hfalse
      obtain ⟨a, ha, hopened⟩ := hopen j a' ha' (by simpa using hfalse)
      have := (h.closed hstate).2 j a ha
      rw [hopened] at this
      cases this }

theorem Safe.terminateAttempt (h : b.Safe) (attempt : Nat) : (b.terminateAttempt attempt).Safe := by
  apply h.setAttempt
  · exact fun _ => id
  · exact fun _ => rfl
  · intro a _ hdone
    right
    dsimp only at hdone
    split at hdone
    · cases hdone
    · exact hdone

/-- A status that is not closed. -/
theorem Safe.publish {status : ManagerWatchBrokerStatus} (h : b.Safe)
    (hstate : status.state = .closed → b.currentStatus.state = .closed) : Safe { b with currentStatus := status } :=
  { h with closed := fun hclosed => h.closed (hstate hclosed) }

/-- Every attempt but the one that `refresh` has to do with has closed. -/
theorem Safe.refreshOn {refresh : Refresh} (h : b.Safe) (attempt : Nat) (hattempt : b.refresh.attempt = some attempt)
    (hrefresh : refresh.attempt = some attempt) : Safe { b with refresh } :=
  { h with
    runs := by
      have hidle : b.refresh ≠ .idle := fun hidle => by rw [hidle] at hattempt; cases hattempt
      have hidle' : refresh ≠ .idle := fun hidle => by rw [hidle] at hrefresh; cases hrefresh
      exact ⟨fun _ => hidle', fun _ => h.runs.mpr hidle⟩
    held := fun hflag i a ha hfalse => by
      have hheld := h.held hflag i a ha hfalse
      rw [hattempt] at hheld
      show refresh.attempt = some i ∨ _
      rw [hrefresh]
      exact hheld
    current := fun i hi => by
      have heq : some attempt = some i := hrefresh.symm.trans hi
      exact h.current i (hattempt.trans heq)
    fresh := fun hflag i hi => by
      have heq : some attempt = some i := hrefresh.symm.trans hi
      exact h.fresh hflag i (hattempt.trans heq) }

/-! ## Requests -/

theorem requestRefresh_cases (b : ManagerWatchBroker) (reason : JsString) (pid : Option Nat) :
    (b.closedFlag = true ∧ b.requestRefresh reason pid = b) ∨
    (b.closedFlag = false ∧ b.pollTimer.isSome = true ∧
      b.requestRefresh reason pid = { b with queuedReason := some reason }) ∨
    (b.closedFlag = false ∧ (b.terminationBlockedAttempt.isSome = true ∨ b.running = true) ∧
      b.requestRefresh reason pid = { b with pollTimer := none, queuedReason := some reason }) ∨
    (b.closedFlag = false ∧ b.terminationBlockedAttempt = none ∧ b.running = false ∧
      b.requestRefresh reason pid = { b with pollTimer := none, running := true }.startRefresh pid) := by
  unfold requestRefresh
  cases hclosed : b.closedFlag with
  | true => exact .inl ⟨rfl, rfl⟩
  | false =>
    right
    rw [if_neg Bool.false_ne_true]
    by_cases hpoll : (b.pollTimer.isSome && b.isDegraded) = true
    · rw [if_pos hpoll]
      exact .inl ⟨rfl, (Bool.and_eq_true_iff.mp hpoll).1, rfl⟩
    · right
      rw [if_neg hpoll]
      dsimp only
      by_cases hblocked : b.terminationBlockedAttempt.isSome = true
      · rw [if_pos hblocked]
        exact .inl ⟨rfl, .inl hblocked, rfl⟩
      · rw [if_neg hblocked]
        by_cases hrunning : b.running = true
        · rw [if_pos hrunning]
          exact .inl ⟨rfl, .inr hrunning, rfl⟩
        · rw [if_neg hrunning]
          exact .inr ⟨rfl, by simpa using hblocked, by simpa using hrunning, rfl⟩

/-- Nothing runs and nothing blocks. -/
theorem Safe.allClosed (h : b.Safe) (hflag : b.closedFlag = false) (hblocked : b.terminationBlockedAttempt = none)
    (hrunning : b.running = false) : b.AllClosed := by
  intro i a ha
  by_contra hfalse
  have hidle : b.refresh = .idle := by
    by_contra hne
    rw [h.runs.mpr hne] at hrunning
    cases hrunning
  obtain hrefresh | hblock := h.held hflag i a ha (by simpa using hfalse)
  · rw [hidle] at hrefresh
    cases hrefresh
  · rw [hblocked] at hblock
    cases hblock

theorem Safe.startRefresh (h : b.Safe) (hall : b.AllClosed) (hflag : b.closedFlag = false)
    (hblocked : b.terminationBlockedAttempt = none) (pid : Option Nat) :
    ({ b with pollTimer := none, running := true }.startRefresh pid).Safe := by
  have hold : ∀ (i : Nat) (a : Attempt), (b.attempts ++ [Attempt.created pid])[i]? = some a →
      b.attempts[i]? = some a ∨ (i = b.attempts.length ∧ a = .created pid) := by
    intro i a ha
    rw [List.getElem?_append] at ha
    split at ha
    · exact .inl ha
    · next hle =>
        obtain ⟨hi, hget⟩ := List.getElem?_eq_some_iff.mp ha
        have hlen : i - b.attempts.length = 0 := by simpa using hi
        refine .inr ⟨by omega, ?_⟩
        simpa [hlen] using hget.symm
  have hnew : ∀ (i : Nat) (a : Attempt), (b.attempts ++ [Attempt.created pid])[i]? = some a → a.closed = false →
      i = b.attempts.length := by
    intro i a ha hfalse
    obtain hbefore | ⟨hi, -⟩ := hold i a ha
    · rw [hall i a hbefore] at hfalse
      cases hfalse
    · exact hi
  exact {
    runs := ⟨fun _ hidle => (by cases hidle), fun _ => rfl⟩
    active := fun i a ha hfalse => congrArg some (hnew i a ha hfalse).symm
    held := fun _ i a ha hfalse => .inl (congrArg some (hnew i a ha hfalse).symm)
    current := fun i hi => .inl hi
    fresh := by
      intro _ i hi
      obtain rfl : b.attempts.length = i := Option.some.inj hi
      exact ⟨.created pid, List.getElem?_concat_length, rfl⟩
    blocked := fun i hi => by cases hi.symm.trans hblocked
    registered := fun _ i hi => by cases hi.symm.trans hblocked
    completing := fun i hi => by
      have := (h.completing i hi).1
      rw [hflag] at this
      cases this
    confirmed := by
      intro i a ha hdone
      obtain hbefore | ⟨-, rfl⟩ := hold i a ha
      · exact h.confirmed i a hbefore hdone
      · cases hdone
    closed := by
      intro hstate
      have := (h.closed hstate).1
      rw [hflag] at this
      cases this }

theorem Safe.requestRefresh (h : b.Safe) (reason : JsString) (pid : Option Nat) :
    (b.requestRefresh reason pid).Safe := by
  obtain ⟨-, heq⟩ | ⟨-, -, heq⟩ | ⟨-, -, heq⟩ | ⟨hflag, hblocked, hrunning, heq⟩ := b.requestRefresh_cases reason pid
  · rw [heq]
    exact h
  · rw [heq]
    exact { h with }
  · rw [heq]
    exact { h with }
  · rw [heq]
    exact h.startRefresh (h.allClosed hflag hblocked hrunning) hflag hblocked pid

/-! ## The end of a refresh -/

theorem Safe.refreshSettled (h : b.Safe) (hended : b.refresh = .ended) (options : Options) :
    (b.refreshSettled options).Safe := by
  have hidle : Safe { b with running := false, refresh := .idle } :=
    { h with
      runs := ⟨fun hrun => (by cases hrun), fun hne => absurd rfl hne⟩
      held := fun hflag i a ha hfalse => by
        obtain hrefresh | hblocked := h.held hflag i a ha hfalse
        · rw [hended] at hrefresh
          cases hrefresh
        · exact .inr hblocked
      current := fun i hi => (by cases hi)
      fresh := fun _ i hi => (by cases hi) }
  unfold ManagerWatchBroker.refreshSettled
  dsimp only
  split
  · exact hidle
  · split
    · split
      · exact { hidle with }
      · exact { hidle with }
    · exact { hidle with }

theorem hasClosed_iff : b.hasClosed i = true ↔ ∃ a, b.attempts[i]? = some a ∧ a.closed = true := by
  unfold hasClosed
  cases b.attempts[i]? <;> simp

/-- An attempt that has closed is not among those that are open. -/
theorem open_ne (hclosed : b.hasClosed i = true) (ha : b.attempts[j]? = some a) (hfalse : a.closed = false) :
    j ≠ i := by
  rintro rfl
  obtain ⟨a', ha', htrue⟩ := hasClosed_iff.mp hclosed
  rw [ha] at ha'
  cases ha'
  rw [hfalse] at htrue
  cases htrue

/-- Nothing is open once the attempt that is active has closed. -/
theorem Safe.allClosed_of (h : b.Safe) (hactive : b.activeAttempt = some i ∨ b.activeAttempt = none)
    (hclosed : b.hasClosed i = true) : b.AllClosed := by
  intro j a ha
  by_contra hne
  have hfalse : a.closed = false := by simpa using hne
  have hj := h.active j a ha hfalse
  obtain hi | hnone := hactive
  · rw [hi] at hj
    exact open_ne hclosed ha hfalse (Option.some.inj hj).symm
  · rw [hnone] at hj
    cases hj

/-- With everything closed, no attempt needs to be active. -/
theorem Safe.forget (h : b.Safe) (hall : b.AllClosed) : Safe { b with activeAttempt := none } :=
  { h with
    active := fun j a ha hfalse => by
      rw [hall j a ha] at hfalse
      cases hfalse
    current := fun _ _ => .inr rfl
    blocked := fun _ _ => .inr rfl
    completing := fun j hj => ⟨(h.completing j hj).1, .inr rfl⟩ }

theorem Safe.releaseAttempt (h : b.Safe) (hclosed : b.hasClosed attempt = true) : (b.releaseAttempt attempt).Safe := by
  unfold ManagerWatchBroker.releaseAttempt
  split
  · next hactive =>
      have hforgot := h.forget (h.allClosed_of (.inl hactive) hclosed)
      exact hforgot.publish id
  · exact h

/-- The attempt of a refresh that has ended is closed, or nothing is created any more. -/
theorem Safe.ended (h : b.Safe) (hattempt : b.refresh.attempt = some attempt)
    (hend : b.closedFlag = false → b.hasClosed attempt = true) : Safe { b with refresh := .ended } :=
  { h with
    runs := by
      have hne : b.refresh ≠ .idle := by
        intro hidle
        rw [hidle] at hattempt
        cases hattempt
      exact ⟨fun _ hidle => (by cases hidle), fun _ => h.runs.mpr hne⟩
    held := fun hflag i a ha hfalse => by
      obtain hrefresh | hblocked := h.held hflag i a ha hfalse
      · rw [hattempt] at hrefresh
        exact absurd (Option.some.inj hrefresh).symm (open_ne (hend hflag) ha hfalse)
      · exact .inr hblocked
    current := fun i hi => (by cases hi)
    fresh := fun _ i hi => (by cases hi) }

/-- What `handleTerminationFailure` registers. -/
theorem attempts_handleTerminationFailure {a' : Attempt} (h : (b.handleTerminationFailure attempt).attempts[i]? = some
    a') : ∃ a, b.attempts[i]? = some a ∧ a'.closed = a.closed ∧ a'.termination = a.termination := by
  obtain ⟨a, ha, rfl⟩ := attempts_setAttempt h
  refine ⟨a, ha, ?_⟩
  split <;> exact ⟨rfl, rfl⟩

/-- `handleTerminationFailure`, of the refresh that ends with it or once the broker is closed. -/
theorem Safe.blockedBy {refresh : Refresh} (h : b.Safe)
    (hactive : b.activeAttempt = some attempt ∨ b.activeAttempt = none)
    (hruns : b.running = true ↔ refresh ≠ .idle)
    (hcurrent : ∀ i, refresh.attempt = some i → b.activeAttempt = some i ∨ b.activeAttempt = none)
    (hopen : b.closedFlag = false → b.refresh.attempt = some attempt ∧ refresh.attempt = none) :
    ({ b with refresh }.handleTerminationFailure attempt).Safe where
  runs := hruns
  active := fun i a' ha' hfalse => by
    obtain ⟨a, ha, hclosed, -⟩ := attempts_handleTerminationFailure ha'
    exact h.active i a ha (hclosed.symm.trans hfalse)
  held := fun hflag i a' ha' hfalse => by
    obtain ⟨a, ha, hclosed, -⟩ := attempts_handleTerminationFailure ha'
    right
    -- Any open attempt is the active one.
    have hi := h.active i a ha (hclosed.symm.trans hfalse)
    obtain hactive | hnone := hactive
    · exact hactive.symm.trans hi
    · rw [hnone] at hi
      cases hi
  current := hcurrent
  fresh := fun hflag i hi => by
    have hnone : refresh.attempt = none := (hopen hflag).2
    cases hnone.symm.trans hi
  blocked := fun i hi => by
    obtain rfl : attempt = i := Option.some.inj hi
    exact hactive
  registered := fun hflag i hi => by
    obtain rfl : attempt = i := Option.some.inj hi
    obtain ⟨a, ha, habsent⟩ := h.fresh hflag attempt (hopen hflag).1
    refine ⟨rfl, _, attempts_setAttempt_of _ ha, ?_⟩
    rw [if_pos rfl]
    show (if a.closedHandler = ClosedHandler.absent then ClosedHandler.registered else a.closedHandler) = _
    rw [if_pos habsent]
  completing := h.completing
  confirmed := fun i a' ha' hdone => by
    obtain ⟨a, ha, hclosed, htermination⟩ := attempts_handleTerminationFailure ha'
    rw [hclosed]
    exact h.confirmed i a ha (htermination.symm.trans hdone)
  closed := fun hstate => by cases hstate

theorem Safe.finishRefresh (h : b.Safe) (hattempt : b.refresh.attempt = some attempt) {confirmed : Bool}
    (hconfirmed : confirmed = true → b.hasClosed attempt = true) : (b.finishRefresh attempt confirmed).Safe := by
  have hrunning : b.running = true := h.runs.mpr fun hidle => by
    rw [hidle] at hattempt
    cases hattempt
  unfold ManagerWatchBroker.finishRefresh
  dsimp only
  cases confirmed with
  | true =>
    rw [if_pos rfl]
    exact (h.ended hattempt fun _ => hconfirmed rfl).releaseAttempt (hconfirmed rfl)
  | false =>
    rw [if_neg Bool.false_ne_true]
    by_cases hflag : b.closedFlag = true
    · rw [if_pos hflag]
      apply h.ended hattempt
      intro hopen
      rw [hflag] at hopen
      cases hopen
    · rw [if_neg hflag]
      exact h.blockedBy (h.current attempt hattempt) ⟨fun _ hidle => (by cases hidle), fun _ => hrunning⟩
        (fun i hi => (by cases hi)) fun _ => ⟨hattempt, rfl⟩

/-! ## Closing -/

theorem Safe.publishClosed (h : b.Safe) (hflag : b.closedFlag = true) (hall : b.AllClosed) : b.publishClosed.Safe :=
  { h with closed := fun _ => ⟨hflag, hall⟩ }

/-- The callback of an attempt that does not block. -/
theorem Safe.ran (h : b.Safe) (hblocked : b.terminationBlockedAttempt ≠ some attempt)
    (hhandler : ∃ a, b.attempts[attempt]? = some a ∧ a.closedHandler = .registered) :
    (b.setAttempt attempt fun a => { a with closedHandler := .ran }).Safe := by
  let f : Attempt → Attempt := fun a => { a with closedHandler := .ran }
  have hback : ∀ (i : Nat) (a' : Attempt), (b.setAttempt attempt f).attempts[i]? = some a' →
      ∃ a, b.attempts[i]? = some a ∧ a'.closed = a.closed ∧ a'.termination = a.termination := by
    intro i a' ha'
    obtain ⟨a, ha, rfl⟩ := attempts_setAttempt ha'
    refine ⟨a, ha, ?_⟩
    split <;> exact ⟨rfl, rfl⟩
  have hother : ∀ (i : Nat) (handler : ClosedHandler), i ≠ attempt →
      (∃ a : Attempt, b.attempts[i]? = some a ∧ a.closedHandler = handler) →
      ∃ a : Attempt, (b.setAttempt attempt f).attempts[i]? = some a ∧ a.closedHandler = handler := by
    rintro i handler hne ⟨a, ha, hh⟩
    have hget := attempts_setAttempt_of (i := attempt) f ha
    rw [if_neg (Ne.symm hne)] at hget
    exact ⟨a, hget, hh⟩
  -- The refresh that runs has another attempt, since that has no callback yet.
  have hrefresh : b.closedFlag = false → ∀ i, b.refresh.attempt = some i → i ≠ attempt := by
    rintro hflag i hi rfl
    obtain ⟨a, ha, habsent⟩ := h.fresh hflag i hi
    obtain ⟨a', ha', hregistered⟩ := hhandler
    rw [ha] at ha'
    cases ha'
    rw [habsent] at hregistered
    cases hregistered
  exact {
    runs := h.runs
    active := fun i a' ha' hfalse =>
      have ⟨a, ha, hc, _⟩ := hback i a' ha'
      h.active i a ha (hc.symm.trans hfalse)
    held := fun hflag i a' ha' hfalse =>
      have ⟨a, ha, hc, _⟩ := hback i a' ha'
      h.held hflag i a ha (hc.symm.trans hfalse)
    current := h.current
    fresh := fun hflag i hi => hother i _ (hrefresh hflag i hi) (h.fresh hflag i hi)
    blocked := h.blocked
    registered := fun hflag i hi => by
      have hne : i ≠ attempt := by
        rintro rfl
        exact hblocked hi
      exact ⟨hi, hother i _ hne (h.registered hflag i hi).2⟩
    completing := h.completing
    confirmed := fun i a' ha' hdone =>
      have ⟨a, ha, hc, ht⟩ := hback i a' ha'
      hc.trans (h.confirmed i a ha (ht.symm.trans hdone))
    closed := fun hstate => ⟨(h.closed hstate).1, fun i a' ha' =>
      have ⟨a, ha, hc, _⟩ := hback i a' ha'
      hc.trans ((h.closed hstate).2 i a ha)⟩ }

/-- An attempt that has closed need not block. -/
theorem Safe.unblock (h : b.Safe) (hclosed : b.hasClosed attempt = true)
    (hblocked : b.terminationBlockedAttempt = some attempt) : Safe { b with terminationBlockedAttempt := none } :=
  { h with
    held := fun hflag i a ha hfalse => by
      obtain hrefresh | hblock := h.held hflag i a ha hfalse
      · exact .inl hrefresh
      · rw [hblocked] at hblock
        exact absurd (Option.some.inj hblock).symm (open_ne hclosed ha hfalse)
    blocked := fun i hi => (by cases hi)
    registered := fun _ i hi => (by cases hi) }

theorem hasClosed_setAttempt {f : Attempt → Attempt} (hf : ∀ a, (f a).closed = a.closed)
    (h : b.hasClosed j = true) : (b.setAttempt i f).hasClosed j = true := by
  obtain ⟨a, ha, hclosed⟩ := hasClosed_iff.mp h
  refine hasClosed_iff.mpr ⟨_, attempts_setAttempt_of f ha, ?_⟩
  split
  · rw [hf, hclosed]
  · exact hclosed

theorem Safe.runClosedHandler (h : b.Safe) (hclosed : b.hasClosed attempt = true) (hhandler : ∃ a, b.attempts[attempt]?
    = some a ∧ a.closedHandler = .registered) : (b.runClosedHandler attempt).Safe := by
  unfold ManagerWatchBroker.runClosedHandler
  dsimp only
  by_cases hblocked : b.terminationBlockedAttempt = some attempt
  · rw [if_neg (show ¬(b.setAttempt attempt _).terminationBlockedAttempt ≠ some attempt from not_not.mpr hblocked)]
    let b₁ := { b with terminationBlockedAttempt := none }
    let b₂ := b₁.setAttempt attempt fun a => { a with closedHandler := .ran }
    have hran : b₂.Safe := (h.unblock hclosed hblocked).ran (fun hnone => (by cases hnone)) hhandler
    have hclosed₂ : b₂.hasClosed attempt = true := hasClosed_setAttempt (fun _ => rfl) hclosed
    have hactive : b₂.activeAttempt = some attempt ∨ b₂.activeAttempt = none := h.blocked attempt hblocked
    have hreleased := hran.releaseAttempt hclosed₂
    split
    · next hflag =>
        apply hreleased.publishClosed hflag
        have hall := hran.allClosed_of hactive hclosed₂
        unfold ManagerWatchBroker.releaseAttempt
        split
        · exact hall
        · exact hall
    · exact { hreleased with }
  · rw [if_pos (show (b.setAttempt attempt _).terminationBlockedAttempt ≠ some attempt from hblocked)]
    exact h.ran hblocked hhandler

theorem Safe.close (h : b.Safe) : b.close.Safe := by
  unfold ManagerWatchBroker.close
  split
  · exact h
  · have hclosing : Safe { b with
        closedFlag := true, queuedReason := none, pollTimer := none, debounceTimer := none } :=
      { h with
        held := fun hflag => by cases hflag
        fresh := fun hflag => by cases hflag
        registered := fun hflag => by cases hflag
        completing := fun i hi => ⟨rfl, (h.completing i hi).2⟩
        closed := fun hstate => ⟨rfl, (h.closed hstate).2⟩ }
    dsimp only
    split
    · next hnone =>
        apply hclosing.publishClosed rfl
        intro i a ha
        by_contra hne
        have hactive := h.active i a ha (by simpa using hne)
        rw [show b.activeAttempt = none from hnone] at hactive
        cases hactive
    · next attempt hactive =>
        apply Safe.terminateAttempt
        exact { hclosing with
          completing := fun i hi => ⟨rfl, .inl (hactive.trans hi)⟩
          closed := fun hstate => by cases hstate }

theorem Safe.finishClose (h : b.Safe) (hcompletion : b.closeCompletion = some attempt) {confirmed : Bool}
    (hconfirmed : confirmed = true → b.hasClosed attempt = true) : (b.finishClose attempt confirmed).Safe := by
  obtain ⟨hflag, hactive⟩ := h.completing attempt hcompletion
  have hcompleted : Safe { b with closeCompletion := none } := { h with completing := fun i hi => by cases hi }
  unfold ManagerWatchBroker.finishClose
  dsimp only
  cases confirmed with
  | true =>
    have hall : b.AllClosed := h.allClosed_of hactive (hconfirmed rfl)
    have hnone : (if b.activeAttempt = some attempt then none else b.activeAttempt) = none := by
      split
      · rfl
      · next hne => exact hactive.resolve_left hne
    rw [if_pos rfl, hnone]
    have hvacuous : ∀ {P : Prop}, b.closedFlag = false → P := by
      intro P hopen
      rw [hflag] at hopen
      cases hopen
    let blocked := if b.terminationBlockedAttempt = some attempt then none else b.terminationBlockedAttempt
    have hforgot : Safe { b with
        closeCompletion := none, activeAttempt := none, terminationBlockedAttempt := blocked } :=
      { hcompleted.forget hall with
        held := hvacuous
        blocked := fun _ _ => .inr rfl
        registered := hvacuous }
    exact hforgot.publishClosed hflag hall
  | false =>
    rw [if_neg Bool.false_ne_true]
    apply hcompleted.blockedBy hactive h.runs h.current
    intro hopen
    rw [show b.closedFlag = true from hflag] at hopen
    cases hopen

/-! ## Every callback -/

theorem hasClosed_of_mayConfirm {confirmed : Bool} (h : b.mayConfirm i confirmed = true) (hc : confirmed = true) :
    b.hasClosed i = true := by
  unfold mayConfirm at h
  rw [hc] at h
  exact h

theorem terminationOutcome_eq {confirmed : Bool} (h : b.terminationOutcome i = some confirmed) :
    ∃ a, b.attempts[i]? = some a ∧ a.termination = .done confirmed := by
  obtain ⟨a, ha, houtcome⟩ := Option.bind_eq_some_iff.mp h
  refine ⟨a, ha, ?_⟩
  cases htermination : a.termination with
  | done c =>
    rw [htermination] at houtcome
    cases houtcome
    rfl
  | notStarted | sigterm | sigkill =>
    rw [htermination] at houtcome
    cases houtcome

theorem mayRunHandler (h : ((b.attempts[i]?).any fun a => a.closed && decide (a.closedHandler = .registered)) = true) :
    ∃ a, b.attempts[i]? = some a ∧ a.closed = true ∧ a.closedHandler = .registered := by
  cases hget : b.attempts[i]? with
  | none =>
    rw [hget] at h
    cases h
  | some a =>
    rw [hget] at h
    obtain ⟨hclosed, hhandler⟩ := Bool.and_eq_true_iff.mp h
    exact ⟨a, rfl, hclosed, of_decide_eq_true hhandler⟩

theorem Safe.hasClosed_of_outcome (h : b.Safe) {confirmed : Bool} (houtcome : b.terminationOutcome i = some confirmed)
    (hc : confirmed = true) : b.hasClosed i = true := by
  obtain ⟨a, ha, hdone⟩ := terminationOutcome_eq houtcome
  rw [hc] at hdone
  exact hasClosed_iff.mpr ⟨a, ha, h.confirmed i a ha hdone⟩

theorem Safe.refreshFailed (h : b.Safe) (error : JsString) (timedOut : Bool) : (b.refreshFailed error timedOut).Safe := by
  unfold ManagerWatchBroker.refreshFailed
  split
  · exact h
  · exact { h with closed := fun hstate => by cases hstate }

theorem refresh_refreshFailed (error : JsString) (timedOut : Bool) :
    (b.refreshFailed error timedOut).refresh = b.refresh := by
  unfold ManagerWatchBroker.refreshFailed
  split <;> rfl

theorem Safe.attemptFailed (h : b.Safe) (hrefresh : b.refresh = .racing attempt) (error : JsString) (timedOut : Bool) :
    (b.attemptFailed attempt error timedOut).Safe := by
  have hfailed := (h.refreshFailed error timedOut).terminateAttempt attempt
  apply hfailed.refreshOn attempt _ rfl
  show (b.refreshFailed error timedOut).refresh.attempt = _
  rw [refresh_refreshFailed, hrefresh]
  rfl

theorem Safe.passDeadline (h : b.Safe) {confirmed : Bool} (hconfirmed : confirmed = true → b.hasClosed attempt = true)
    (heq : b.passDeadline attempt confirmed = some b') : b'.Safe := by
  have hterminated : ∀ f : Attempt → Attempt, (∀ a, (f a).closed = a.closed) →
      (∀ a, (f a).closedHandler = a.closedHandler) → (∀ a, (f a).termination = .done true → confirmed = true) →
      (b.setAttempt attempt f).Safe := by
    intro f hclosed hhandler htermination
    apply h.setAttempt
    · intro a hfalse
      exact (hclosed a).symm.trans hfalse
    · exact hhandler
    · intro a ha hdone
      obtain ⟨a', ha', htrue⟩ := hasClosed_iff.mp (hconfirmed (htermination a hdone))
      rw [ha] at ha'
      cases ha'
      exact .inl ((hclosed a).trans htrue)
  unfold ManagerWatchBroker.passDeadline at heq
  split at heq
  · cases heq
  · split at heq
    · cases heq
      refine hterminated _ (fun _ => rfl) (fun _ => rfl) fun a hdone => ?_
      dsimp only at hdone
      split at hdone
      · assumption
      · cases hdone
    · cases heq
      exact hterminated _ (fun _ => rfl) (fun _ => rfl) fun a hdone => Termination.done.inj hdone
    · cases heq

theorem Safe.step {e : Event} (h : b.Safe) (hstep : b.step options e = some b') : b'.Safe := by
  cases e with
  | start pid =>
    cases hstep
    unfold ManagerWatchBroker.start
    split
    · exact h
    · apply Safe.requestRefresh
      exact { h with closed := fun hstate => by cases hstate }
  | requestRefresh reason pid =>
    cases hstep
    exact h.requestRefresh reason pid
  | close =>
    cases hstep
    exact h.close
  | microtask place pid =>
    obtain ⟨reason, -, rfl⟩ := Option.map_eq_some_iff.mp hstep
    apply Safe.requestRefresh
    exact { h with }
  | pollTimer pid =>
    obtain ⟨_, -, rfl⟩ := Option.map_eq_some_iff.mp hstep
    apply Safe.requestRefresh
    exact { h with }
  | debounceTimer pid =>
    obtain ⟨reason, -, rfl⟩ := Option.map_eq_some_iff.mp hstep
    apply Safe.requestRefresh
    exact { h with }
  | watchEvent reason =>
    cases hstep
    exact { h with }
  | watchError message =>
    simp only [ManagerWatchBroker.step] at hstep
    split at hstep
    · cases hstep
      exact h
    · cases hstep
      exact { h with closed := fun hstate => by cases hstate }
  | closed attempt =>
    simp only [ManagerWatchBroker.step] at hstep
    split at hstep
    · cases hstep
      apply h.setAttempt
      · exact fun _ hfalse => by cases hfalse
      · exact fun _ => rfl
      · exact fun _ _ _ => .inl rfl
    · cases hstep
  | closedHandler attempt =>
    simp only [ManagerWatchBroker.step] at hstep
    split at hstep
    · next hany =>
        cases hstep
        obtain ⟨a, ha, hclosed, hhandler⟩ := mayRunHandler hany
        exact h.runClosedHandler (hasClosed_iff.mpr ⟨a, ha, hclosed⟩) ⟨a, ha, hhandler⟩
    · cases hstep
  | result isPartial errors localErrors =>
    simp only [ManagerWatchBroker.step] at hstep
    split at hstep
    · next attempt hrefresh =>
        cases hstep
        unfold resultReceived
        split
        · exact h.refreshOn attempt (by rw [hrefresh]; rfl) rfl
        · exact h.refreshOn attempt (by rw [hrefresh]; rfl) rfl
    · cases hstep
  | rejected error =>
    simp only [ManagerWatchBroker.step] at hstep
    split at hstep
    · next attempt hrefresh =>
        cases hstep
        exact h.attemptFailed hrefresh error false
    · cases hstep
  | timedOut error =>
    simp only [ManagerWatchBroker.step] at hstep
    split at hstep
    · next attempt hrefresh =>
        cases hstep
        exact h.attemptFailed hrefresh error true
    · cases hstep
  | snapshotTaken =>
    simp only [ManagerWatchBroker.step] at hstep
    split at hstep
    · next attempt isPartial errors hrefresh =>
        cases hstep
        have hclosing : Safe { b with refresh := .closing attempt } := h.refreshOn attempt (by rw [hrefresh]; rfl) rfl
        unfold ManagerWatchBroker.snapshotTaken
        dsimp only
        split
        · exact hclosing
        · refine { hclosing with closed := fun hstate => ?_ }
          dsimp only at hstate
          split at hstate
          · cases hstate
          · cases hstate
    · cases hstep
  | snapshotRejected error =>
    simp only [ManagerWatchBroker.step] at hstep
    split at hstep
    · next attempt _ _ hrefresh =>
        cases hstep
        apply (h.refreshFailed error false).refreshOn attempt _ rfl
        rw [refresh_refreshFailed, hrefresh]
        rfl
    · cases hstep
  | closeAwaited confirmed =>
    simp only [ManagerWatchBroker.step] at hstep
    split at hstep
    · next attempt hrefresh =>
        have hattempt : b.refresh.attempt = some attempt := by rw [hrefresh]; rfl
        split at hstep
        · cases hstep
        · next hmay =>
            split at hstep
            · next hconfirmed =>
                cases hstep
                exact h.finishRefresh hattempt fun _ => hasClosed_of_mayConfirm (by simpa using hmay) hconfirmed
            · cases hstep
              exact (h.terminateAttempt attempt).refreshOn attempt hattempt rfl
    · cases hstep
  | terminationDeadline attempt confirmed =>
    simp only [ManagerWatchBroker.step] at hstep
    split at hstep
    · next hmay => exact h.passDeadline (hasClosed_of_mayConfirm hmay) hstep
    · cases hstep
  | terminationAwaited =>
    simp only [ManagerWatchBroker.step] at hstep
    split at hstep
    · next attempt hrefresh =>
        obtain ⟨confirmed, houtcome, rfl⟩ := Option.map_eq_some_iff.mp hstep
        exact h.finishRefresh (by rw [hrefresh]; rfl) (h.hasClosed_of_outcome houtcome)
    · cases hstep
  | refreshSettled =>
    simp only [ManagerWatchBroker.step] at hstep
    split at hstep
    · next hended =>
        cases hstep
        exact h.refreshSettled hended options
    · cases hstep
  | closeCompleted =>
    obtain ⟨attempt, hcompletion, hrest⟩ := Option.bind_eq_some_iff.mp hstep
    obtain ⟨confirmed, houtcome, rfl⟩ := Option.map_eq_some_iff.mp hrest
    exact h.finishClose hcompletion (h.hasClosed_of_outcome houtcome)

/-! ## What a callback does to the pending requests -/

/-- Nothing is requested and nothing is dropped; an attempt may come to block. -/
structure Quiet (b b' : ManagerWatchBroker) : Prop where
  length : b'.attempts.length = b.attempts.length
  closedFlag : b'.closedFlag = b.closedFlag
  started : b'.started = b.started
  running : b'.running = b.running
  pollTimer : b'.pollTimer = b.pollTimer
  microtasks : b'.microtasks = b.microtasks
  queuedReason : b'.queuedReason = b.queuedReason
  blocked : b.terminationBlockedAttempt.isSome = true → b'.terminationBlockedAttempt.isSome = true

theorem Quiet.refl (b : ManagerWatchBroker) : Quiet b b := ⟨rfl, rfl, rfl, rfl, rfl, rfl, rfl, id⟩

theorem Quiet.trans {b'' : ManagerWatchBroker} (h : Quiet b b') (h' : Quiet b' b'') : Quiet b b'' :=
  ⟨h'.length.trans h.length, h'.closedFlag.trans h.closedFlag, h'.started.trans h.started, h'.running.trans h.running,
    h'.pollTimer.trans h.pollTimer, h'.microtasks.trans h.microtasks, h'.queuedReason.trans h.queuedReason,
    fun hb => h'.blocked (h.blocked hb)⟩

theorem quiet_setAttempt (f : Attempt → Attempt) : Quiet b (b.setAttempt i f) :=
  ⟨List.length_modify .., rfl, rfl, rfl, rfl, rfl, rfl, id⟩

theorem quiet_releaseAttempt : Quiet b (b.releaseAttempt i) := by
  unfold ManagerWatchBroker.releaseAttempt
  split <;> exact ⟨rfl, rfl, rfl, rfl, rfl, rfl, rfl, id⟩

theorem quiet_handleTerminationFailure : Quiet b (b.handleTerminationFailure i) :=
  ⟨List.length_modify .., rfl, rfl, rfl, rfl, rfl, rfl, fun _ => rfl⟩

theorem quiet_finishRefresh (confirmed : Bool) : Quiet b (b.finishRefresh i confirmed) := by
  have hended : Quiet b { b with refresh := .ended } := ⟨rfl, rfl, rfl, rfl, rfl, rfl, rfl, id⟩
  unfold ManagerWatchBroker.finishRefresh
  dsimp only
  split
  · exact hended.trans quiet_releaseAttempt
  · split
    · exact hended
    · exact hended.trans quiet_handleTerminationFailure

theorem quiet_refreshFailed (error : JsString) (timedOut : Bool) : Quiet b (b.refreshFailed error timedOut) := by
  unfold ManagerWatchBroker.refreshFailed
  split <;> exact ⟨rfl, rfl, rfl, rfl, rfl, rfl, rfl, id⟩

theorem quiet_refresh (refresh : Refresh) : Quiet b { b with refresh } := ⟨rfl, rfl, rfl, rfl, rfl, rfl, rfl, id⟩

theorem quiet_attemptFailed (error : JsString) (timedOut : Bool) : Quiet b (b.attemptFailed i error timedOut) :=
  ((quiet_refreshFailed error timedOut).trans (quiet_setAttempt _)).trans (quiet_refresh _)

theorem quiet_snapshotTaken (isPartial : Bool) (errors : List JsString) :
    Quiet b (b.snapshotTaken i isPartial errors) := by
  unfold ManagerWatchBroker.snapshotTaken
  dsimp only
  split <;> exact ⟨rfl, rfl, rfl, rfl, rfl, rfl, rfl, id⟩

theorem quiet_passDeadline {confirmed : Bool} (h : b.passDeadline i confirmed = some b') : Quiet b b' := by
  unfold ManagerWatchBroker.passDeadline at h
  split at h
  · cases h
  · split at h
    · cases h
      exact quiet_setAttempt _
    · cases h
      exact quiet_setAttempt _
    · cases h

/-- The events of the running attempt, of the watchers and of `attempt.closed`. -/
def isQuiet : Event → Bool
  | .watchEvent _ | .watchError _ | .closed _ | .result _ _ _ | .rejected _ | .timedOut _ | .snapshotTaken
  | .snapshotRejected _ | .closeAwaited _ | .terminationDeadline _ _ | .terminationAwaited => true
  | _ => false

theorem quiet_step {e : Event} (he : isQuiet e = true) (hstep : b.step options e = some b') : Quiet b b' := by
  cases e with
  | watchEvent reason =>
    cases hstep
    exact ⟨rfl, rfl, rfl, rfl, rfl, rfl, rfl, id⟩
  | watchError message =>
    simp only [ManagerWatchBroker.step] at hstep
    split at hstep
    · cases hstep
      exact .refl b
    · cases hstep
      exact ⟨rfl, rfl, rfl, rfl, rfl, rfl, rfl, id⟩
  | closed attempt =>
    simp only [ManagerWatchBroker.step] at hstep
    split at hstep
    · cases hstep
      exact quiet_setAttempt _
    · cases hstep
  | result isPartial errors localErrors =>
    simp only [ManagerWatchBroker.step] at hstep
    split at hstep
    · cases hstep
      unfold resultReceived
      split <;> exact quiet_refresh _
    · cases hstep
  | rejected error =>
    simp only [ManagerWatchBroker.step] at hstep
    split at hstep
    · cases hstep
      exact quiet_attemptFailed error false
    · cases hstep
  | timedOut error =>
    simp only [ManagerWatchBroker.step] at hstep
    split at hstep
    · cases hstep
      exact quiet_attemptFailed error true
    · cases hstep
  | snapshotTaken =>
    simp only [ManagerWatchBroker.step] at hstep
    split at hstep
    · cases hstep
      exact quiet_snapshotTaken _ _
    · cases hstep
  | snapshotRejected error =>
    simp only [ManagerWatchBroker.step] at hstep
    split at hstep
    · cases hstep
      exact (quiet_refreshFailed error false).trans (quiet_refresh _)
    · cases hstep
  | closeAwaited confirmed =>
    simp only [ManagerWatchBroker.step] at hstep
    split at hstep
    · split at hstep
      · cases hstep
      · split at hstep
        · cases hstep
          exact quiet_finishRefresh true
        · cases hstep
          exact (quiet_setAttempt _).trans (quiet_refresh _)
    · cases hstep
  | terminationDeadline attempt confirmed =>
    simp only [ManagerWatchBroker.step] at hstep
    split at hstep
    · exact quiet_passDeadline hstep
    · cases hstep
  | terminationAwaited =>
    simp only [ManagerWatchBroker.step] at hstep
    split at hstep
    · obtain ⟨confirmed, -, rfl⟩ := Option.map_eq_some_iff.mp hstep
      exact quiet_finishRefresh confirmed
    · cases hstep
  | start _ | requestRefresh _ _ | close | microtask _ _ | pollTimer _ | debounceTimer _ | closedHandler _
  | refreshSettled | closeCompleted => cases he

/-- The broker in which a request comes to be made. -/
structure Requests (b b₀ : ManagerWatchBroker) : Prop where
  attempts : b₀.attempts = b.attempts
  closedFlag : b₀.closedFlag = b.closedFlag
  running : b₀.running = b.running
  blocked : b₀.terminationBlockedAttempt = b.terminationBlockedAttempt

theorem step_cases {e : Event} (hstep : b.step options e = some b') : (∃ b₀ reason pid, Requests b b₀ ∧ b' =
    b₀.requestRefresh reason pid) ∨ b' = b.close ∨ b' = b.refreshSettled options ∨ (∃ attempt,
    b.terminationBlockedAttempt = some attempt ∧ b' = b.runClosedHandler attempt) ∨ (∃ attempt confirmed,
    b.closeCompletion = some attempt ∧ b' = b.finishClose attempt confirmed) ∨ Quiet b b' := by
  cases e with
  | start pid =>
    cases hstep
    unfold ManagerWatchBroker.start
    split
    · exact .inr (.inr (.inr (.inr (.inr (.refl b)))))
    · refine .inl ⟨{ b with
        started := true
        currentStatus := { b.currentStatus with state := .initializing, isPartial := true, errors := [] } },
        _, pid, ⟨rfl, rfl, rfl, rfl⟩, rfl⟩
  | requestRefresh reason pid =>
    cases hstep
    exact .inl ⟨b, reason, pid, ⟨rfl, rfl, rfl, rfl⟩, rfl⟩
  | close =>
    cases hstep
    exact .inr (.inl rfl)
  | microtask place pid =>
    obtain ⟨reason, -, rfl⟩ := Option.map_eq_some_iff.mp hstep
    exact .inl ⟨{ b with microtasks := b.microtasks.eraseIdx place }, reason, pid, ⟨rfl, rfl, rfl, rfl⟩, rfl⟩
  | pollTimer pid =>
    obtain ⟨_, -, rfl⟩ := Option.map_eq_some_iff.mp hstep
    exact .inl ⟨{ b with pollTimer := none }, _, pid, ⟨rfl, rfl, rfl, rfl⟩, rfl⟩
  | debounceTimer pid =>
    obtain ⟨reason, -, rfl⟩ := Option.map_eq_some_iff.mp hstep
    exact .inl ⟨{ b with debounceTimer := none }, reason, pid, ⟨rfl, rfl, rfl, rfl⟩, rfl⟩
  | closedHandler attempt =>
    simp only [ManagerWatchBroker.step] at hstep
    split at hstep
    · cases hstep
      by_cases hblocked : b.terminationBlockedAttempt = some attempt
      · exact .inr (.inr (.inr (.inl ⟨attempt, hblocked, rfl⟩)))
      · unfold ManagerWatchBroker.runClosedHandler
        dsimp only
        rw [if_pos (show (b.setAttempt attempt _).terminationBlockedAttempt ≠ some attempt from hblocked)]
        exact .inr (.inr (.inr (.inr (.inr (quiet_setAttempt _)))))
    · cases hstep
  | refreshSettled =>
    simp only [ManagerWatchBroker.step] at hstep
    split at hstep
    · cases hstep
      exact .inr (.inr (.inl rfl))
    · cases hstep
  | closeCompleted =>
    obtain ⟨attempt, hcompletion, hrest⟩ := Option.bind_eq_some_iff.mp hstep
    obtain ⟨confirmed, -, rfl⟩ := Option.map_eq_some_iff.mp hrest
    exact .inr (.inr (.inr (.inr (.inl ⟨attempt, confirmed, hcompletion, rfl⟩))))
  | watchEvent _ | watchError _ | closed _ | result _ _ _ | rejected _ | timedOut _ | snapshotTaken
  | snapshotRejected _ | closeAwaited _ | terminationDeadline _ _ | terminationAwaited =>
    exact .inr (.inr (.inr (.inr (.inr (quiet_step rfl hstep)))))

/-! ## Nothing is forgotten -/

/-- A refresh runs, a poll timer is armed, a refresh is queued as a microtask, or an attempt blocks. -/
def Pending (b : ManagerWatchBroker) : Prop :=
  b.running = true ∨ b.pollTimer.isSome = true ∨ b.microtasks ≠ [] ∨ b.terminationBlockedAttempt.isSome = true

theorem pending_requestRefresh {reason : JsString} {pid : Option Nat}
    (hopen : (b.requestRefresh reason pid).closedFlag = false) : (b.requestRefresh reason pid).Pending := by
  obtain ⟨hflag, heq⟩ | ⟨-, hpoll, heq⟩ | ⟨-, hboth, heq⟩ | ⟨-, -, -, heq⟩ := b.requestRefresh_cases reason pid
  · rw [heq, hflag] at hopen
    cases hopen
  · rw [heq]
    exact .inr (.inl hpoll)
  · rw [heq]
    obtain hblocked | hrunning := hboth
    · exact .inr (.inr (.inr hblocked))
    · exact .inl hrunning
  · rw [heq]
    exact .inl rfl

theorem closedFlag_close : b.close.closedFlag = true := by
  unfold ManagerWatchBroker.close
  split
  · assumption
  · dsimp only
    split <;> rfl

/-- What `finally` leaves: a closed broker, an attempt that blocks, a microtask or a timer. -/
theorem refreshSettled_cases (b : ManagerWatchBroker) (options : Options) :
    (b.closedFlag = true ∨ b.terminationBlockedAttempt.isSome = true) ∧
      b.refreshSettled options = { b with running := false, refresh := .idle } ∨
    (b.refreshSettled options).microtasks ≠ [] ∨ (b.refreshSettled options).pollTimer.isSome = true := by
  unfold ManagerWatchBroker.refreshSettled
  dsimp only
  split
  · next hor => exact .inl ⟨by simpa using hor, rfl⟩
  · right
    split
    · split
      · exact .inr rfl
      · exact .inl (by simp)
    · exact .inr rfl

theorem runClosedHandler_blocked (hblocked : b.terminationBlockedAttempt = some i) :
    (b.runClosedHandler i).closedFlag = b.closedFlag ∧
      (b.closedFlag = false → (b.runClosedHandler i).microtasks ≠ []) ∧
      (b.runClosedHandler i).attempts.length = b.attempts.length := by
  unfold ManagerWatchBroker.runClosedHandler
  dsimp only
  rw [if_neg (show ¬(b.setAttempt i _).terminationBlockedAttempt ≠ some i from not_not.mpr hblocked)]
  let b₁ := { b.setAttempt i fun a => { a with closedHandler := .ran } with terminationBlockedAttempt := none }
  have hquiet : Quiet b₁ (b₁.releaseAttempt i) := quiet_releaseAttempt
  have hlength : b₁.attempts.length = b.attempts.length := List.length_modify ..
  split
  · next hflag =>
      refine ⟨hquiet.closedFlag, fun hopen => ?_, hquiet.length.trans hlength⟩
      rw [show (b₁.releaseAttempt i).closedFlag = b.closedFlag from hquiet.closedFlag, hopen] at hflag
      cases hflag
  · exact ⟨hquiet.closedFlag, fun _ => by simp, hquiet.length.trans hlength⟩

theorem finishClose_fields (confirmed : Bool) : (b.finishClose i confirmed).closedFlag = b.closedFlag ∧
    (b.finishClose i confirmed).attempts.length = b.attempts.length := by
  unfold ManagerWatchBroker.finishClose
  dsimp only
  split
  · exact ⟨rfl, rfl⟩
  · exact ⟨rfl, List.length_modify ..⟩

theorem Quiet.pending (h : Quiet b b') (hpending : b.Pending) : b'.Pending := by
  obtain hrun | hpoll | hmicro | hblocked := hpending
  · exact .inl (h.running.trans hrun)
  · exact .inr (.inl (by rw [h.pollTimer]; exact hpoll))
  · exact .inr (.inr (.inl (by rw [h.microtasks]; exact hmicro)))
  · exact .inr (.inr (.inr (h.blocked hblocked)))

theorem pending_step {e : Event} (h : b.Safe) (hstep : b.step options e = some b') (hpending : b.started = true →
    b.closedFlag = false → b.Pending) (hstarted : b'.started = true) (hopen : b'.closedFlag = false) : b'.Pending := by
  obtain ⟨b₀, reason, pid, -, rfl⟩ | rfl | rfl | ⟨i, hblocked, rfl⟩ | ⟨i, c, hcompletion, rfl⟩ | hquiet :=
    step_cases hstep
  · exact pending_requestRefresh hopen
  · rw [closedFlag_close] at hopen
    cases hopen
  · obtain ⟨hor, heq⟩ | hmicro | hpoll := b.refreshSettled_cases options
    · rw [heq] at hopen ⊢
      obtain hflag | hblocked := hor
      · cases hflag.symm.trans hopen
      · exact .inr (.inr (.inr hblocked))
    · exact .inr (.inr (.inl hmicro))
    · exact .inr (.inl hpoll)
  · obtain ⟨hflag, hmicro, -⟩ := runClosedHandler_blocked hblocked
    exact .inr (.inr (.inl (hmicro (hflag.symm.trans hopen))))
  · rw [(finishClose_fields c).1, (h.completing i hcompletion).1] at hopen
    cases hopen
  · exact hquiet.pending (hpending (hquiet.started.symm.trans hstarted) (hquiet.closedFlag.symm.trans hopen))

/-- Since there were so many attempts, there was another one, or the broker was closed, or another one is pending. -/
def Promised (count : Nat) (b : ManagerWatchBroker) : Prop :=
  count < b.attempts.length ∨ b.closedFlag = true ∨ b.pollTimer.isSome = true ∨ b.microtasks ≠ [] ∨
    (b.queuedReason.isSome = true ∧ (b.running = true ∨ b.terminationBlockedAttempt.isSome = true))

theorem length_startRefresh (b : ManagerWatchBroker) (pid : Option Nat) :
    (b.startRefresh pid).attempts.length = b.attempts.length + 1 :=
  List.length_append

theorem promised_requestRefresh {count : Nat} {reason : JsString} {pid : Option Nat}
    (hcount : count ≤ b.attempts.length) : Promised count (b.requestRefresh reason pid) := by
  obtain ⟨hflag, heq⟩ | ⟨-, hpoll, heq⟩ | ⟨-, hboth, heq⟩ | ⟨-, -, -, heq⟩ := b.requestRefresh_cases reason pid
  · rw [heq]
    exact .inr (.inl hflag)
  · rw [heq]
    exact .inr (.inr (.inl hpoll))
  · rw [heq]
    exact .inr (.inr (.inr (.inr ⟨rfl, hboth.symm⟩)))
  · rw [heq]
    left
    rw [length_startRefresh]
    exact Nat.lt_succ_of_le hcount

theorem length_requestRefresh_le (reason : JsString) (pid : Option Nat) :
    b.attempts.length ≤ (b.requestRefresh reason pid).attempts.length := by
  obtain ⟨-, heq⟩ | ⟨-, -, heq⟩ | ⟨-, -, heq⟩ | ⟨-, -, -, heq⟩ := b.requestRefresh_cases reason pid
  · rw [heq]
  · rw [heq]
  · rw [heq]
  · rw [heq, length_startRefresh]
    exact Nat.le_succ _

theorem Quiet.promised {count : Nat} (h : Quiet b b') (hpromised : Promised count b) : Promised count b' := by
  obtain hcount | hflag | hpoll | hmicro | ⟨hqueued, hboth⟩ := hpromised
  · exact .inl (by rw [h.length]; exact hcount)
  · exact .inr (.inl (h.closedFlag.trans hflag))
  · exact .inr (.inr (.inl (by rw [h.pollTimer]; exact hpoll)))
  · exact .inr (.inr (.inr (.inl (by rw [h.microtasks]; exact hmicro))))
  · refine .inr (.inr (.inr (.inr ⟨by rw [h.queuedReason]; exact hqueued, ?_⟩)))
    obtain hrun | hblocked := hboth
    · exact .inl (h.running.trans hrun)
    · exact .inr (h.blocked hblocked)

theorem length_close : b.close.attempts.length = b.attempts.length := by
  unfold ManagerWatchBroker.close
  split
  · rfl
  · dsimp only
    split
    · rfl
    · exact List.length_modify ..

theorem length_refreshSettled : (b.refreshSettled options).attempts = b.attempts := by
  unfold ManagerWatchBroker.refreshSettled
  dsimp only
  split
  · rfl
  · split
    · split <;> rfl
    · rfl

theorem promised_step {count : Nat} {e : Event} (h : b.Safe) (hstep : b.step options e = some b') (hcount : count ≤
    b.attempts.length) (hpromised : Promised count b) : count ≤ b'.attempts.length ∧ Promised count b' := by
  obtain ⟨b₀, reason, pid, hrequests, rfl⟩ | rfl | rfl | ⟨i, hblocked, rfl⟩ | ⟨i, c, hcompletion, rfl⟩ | hquiet :=
    step_cases hstep
  · rw [← hrequests.attempts] at hcount
    exact ⟨hcount.trans (length_requestRefresh_le reason pid), promised_requestRefresh hcount⟩
  · exact ⟨by rw [length_close]; exact hcount, .inr (.inl closedFlag_close)⟩
  · refine ⟨by rw [length_refreshSettled]; exact hcount, ?_⟩
    obtain ⟨hor, heq⟩ | hmicro | hpoll := b.refreshSettled_cases options
    · rw [heq]
      obtain hflag | hblocked := hor
      · exact .inr (.inl hflag)
      · obtain hmore | hflag | hpoll | hmicro | ⟨hqueued, -⟩ := hpromised
        · exact .inl hmore
        · exact .inr (.inl hflag)
        · exact .inr (.inr (.inl hpoll))
        · exact .inr (.inr (.inr (.inl hmicro)))
        · exact .inr (.inr (.inr (.inr ⟨hqueued, .inr hblocked⟩)))
    · exact .inr (.inr (.inr (.inl hmicro)))
    · exact .inr (.inr (.inl hpoll))
  · obtain ⟨hflag, hmicro, hlength⟩ := runClosedHandler_blocked hblocked
    refine ⟨by rw [hlength]; exact hcount, ?_⟩
    cases hclosed : b.closedFlag with
    | true => exact .inr (.inl (hflag.trans hclosed))
    | false => exact .inr (.inr (.inr (.inl (hmicro hclosed))))
  · obtain ⟨hflag, hlength⟩ := finishClose_fields (b := b) (i := i) c
    exact ⟨by rw [hlength]; exact hcount, .inr (.inl (hflag.trans (h.completing i hcompletion).1))⟩
  · exact ⟨by rw [hquiet.length]; exact hcount, hquiet.promised hpromised⟩

/-- An attempt is made only by a request to a broker that is open, with no refresh and nothing that blocks. -/
theorem created_only {e : Event} (h : b.Safe) (hstep : b.step options e = some b')
    (hmore : b.attempts.length < b'.attempts.length) : b.closedFlag = false ∧ b.AllClosed := by
  obtain ⟨b₀, reason, pid, hrequests, rfl⟩ | rfl | rfl | ⟨i, hblocked, rfl⟩ | ⟨i, c, -, rfl⟩ | hquiet :=
    step_cases hstep
  · rw [← hrequests.attempts] at hmore
    obtain ⟨-, heq⟩ | ⟨-, -, heq⟩ | ⟨-, -, heq⟩ | ⟨hflag, hblocked, hrunning, -⟩ :=
      b₀.requestRefresh_cases reason pid
    · rw [heq] at hmore
      exact absurd hmore (Nat.lt_irrefl _)
    · rw [heq] at hmore
      exact absurd hmore (Nat.lt_irrefl _)
    · rw [heq] at hmore
      exact absurd hmore (Nat.lt_irrefl _)
    · have hopen := hrequests.closedFlag.symm.trans hflag
      exact ⟨hopen, h.allClosed hopen (hrequests.blocked.symm.trans hblocked) (hrequests.running.symm.trans hrunning)⟩
  · rw [length_close] at hmore
    exact absurd hmore (Nat.lt_irrefl _)
  · rw [length_refreshSettled] at hmore
    exact absurd hmore (Nat.lt_irrefl _)
  · rw [(runClosedHandler_blocked hblocked).2.2] at hmore
    exact absurd hmore (Nat.lt_irrefl _)
  · rw [(finishClose_fields c).2] at hmore
    exact absurd hmore (Nat.lt_irrefl _)
  · rw [hquiet.length] at hmore
    exact absurd hmore (Nat.lt_irrefl _)

end ManagerWatchBroker

open ManagerWatchBroker

variable {options : Options} {b b' : ManagerWatchBroker}

theorem step_of_system {e : Event} {u : Unit} (h : (system options).step e b = some (u, b')) :
    b.step options e = some b' := by
  obtain ⟨b'', hstep, heq⟩ := Option.map_eq_some_iff.mp h
  cases heq
  exact hstep

theorem pending_reach (h : (system options).Reach .initial b) :
    b.Safe ∧ (b.started = true → b.closedFlag = false → b.Pending) := by
  apply h.invariant (P := fun b => b.Safe ∧ (b.started = true → b.closedFlag = false → b.Pending))
  · exact ⟨safe_initial, fun hstarted => by cases hstarted⟩
  · intro e b u b' hboth _ hstep
    have hstep := step_of_system hstep
    exact ⟨hboth.1.step hstep, pending_step hboth.1 hstep hboth.2⟩

theorem promised_reach {count : Nat} (hsafe : b.Safe) (hcount : count ≤ b.attempts.length) (hb : Promised count b)
    (h : (system options).Reach b b') : Promised count b' := by
  have hall := h.invariant (P := fun b => b.Safe ∧ count ≤ b.attempts.length ∧ Promised count b)
    ⟨hsafe, hcount, hb⟩ fun _ _ _ _ hinv _ hstep =>
      have hstep := step_of_system hstep
      ⟨hinv.1.step hstep, promised_step hinv.1 hstep hinv.2.1 hinv.2.2⟩
  exact hall.2.2

/-- The broker from any state that it reaches. -/
structure Kept (options : Options) (b : ManagerWatchBroker) : Prop where
  /-- An attempt is made only before `close`, when every earlier one has closed. -/
  created : ∀ e b', b.step options e = some b' → b.attempts.length < b'.attempts.length →
    b.closedFlag = false ∧ b.AllClosed
  /-- Between `start` and `close` something is pending. -/
  pending : b.started = true → b.closedFlag = false →
    b.running = true ∨ b.pollTimer.isSome = true ∨ b.microtasks ≠ [] ∨ ∃ attempt, b.Blocks attempt
  /-- The closing of an attempt that blocks queues a request. -/
  unblocked : ∀ attempt b', b.Blocks attempt → b.closedFlag = false →
    b.step options (.closedHandler attempt) = some b' → b'.microtasks ≠ []
  /-- A refresh that is requested, also while another one runs or is blocked, is followed by another attempt, and
  until then leaves one pending. -/
  promised : ∀ reason pid b', (system options).Reach (b.requestRefresh reason pid) b' →
    Promised b.attempts.length b'
  closed : b.currentStatus.state = .closed → b.AllClosed

theorem watch_broker_keeps (options : Options) (b : ManagerWatchBroker) (h : (system options).Reach .initial b) :
    Kept options b := by
  obtain ⟨hsafe, hpending⟩ := pending_reach h
  exact {
    created := fun e b' hstep hmore ↦ created_only hsafe hstep hmore
    pending := fun hstarted hopen ↦ by
      obtain hrun | hpoll | hmicro | hblocked := hpending hstarted hopen
      · exact .inl hrun
      · exact .inr (.inl hpoll)
      · exact .inr (.inr (.inl hmicro))
      · obtain ⟨attempt, hattempt⟩ := Option.isSome_iff_exists.mp hblocked
        exact .inr (.inr (.inr ⟨attempt, hsafe.registered hopen attempt hattempt⟩))
    unblocked := fun attempt b' hblocks hopen hstep ↦ by
      simp only [ManagerWatchBroker.step] at hstep
      split at hstep
      · cases hstep
        exact (runClosedHandler_blocked hblocks.1).2.1 hopen
      · cases hstep
    promised := fun reason pid b' hreach ↦
      promised_reach (hsafe.requestRefresh reason pid) (length_requestRefresh_le reason pid)
        (promised_requestRefresh (Nat.le_refl _)) hreach
    closed := fun hstate ↦ (hsafe.closed hstate).2 }

/-- The first attempt times out and does not close. -/
def neverClosed : List Event :=
  [.start (some 41), .timedOut (js "late"), .terminationDeadline 0 false, .terminationDeadline 0 false,
    .terminationAwaited, .refreshSettled]

theorem watch_broker_keeps_blocked : ∃ b, (system ⟨500, 5000⟩).Reach .initial b ∧ b.running = false ∧
    b.pollTimer = none ∧ b.microtasks = [] ∧ ∃ attempt, b.Blocks attempt := by
  have hrun : ((system ⟨500, 5000⟩).run .initial neverClosed).map (fun b ↦
      (b.started, b.closedFlag, b.running, b.pollTimer, b.microtasks)) =
      some (true, false, false, none, []) :=
    rfl
  obtain ⟨b, hb, hfields⟩ := Option.map_eq_some_iff.mp hrun
  simp only [Prod.mk.injEq] at hfields
  obtain ⟨hstarted, hopen, hrunning, hpoll, hmicro⟩ := hfields
  have hreach := System.run_reach hb
  refine ⟨b, hreach, hrunning, hpoll, hmicro, ?_⟩
  obtain hrun | htimer | hqueued | hblocks := (watch_broker_keeps ⟨500, 5000⟩ b hreach).pending hstarted hopen
  · rw [hrunning] at hrun
    cases hrun
  · rw [hpoll] at htimer
    cases htimer
  · exact absurd hmicro hqueued
  · exact hblocks

end RabiRoute.WatchBroker
