import RabiRoute.Manager.DurableDeliveryCalls
import RabiRoute.Manager.DurableDeliveryHeartbeat

/-!
# Durable deliveries: how often they are sent, and what a completed receipt is worth

All interleavings of calls, workers, clock ticks and deaths.  Sends are bounded by the reservations,
each of which needs a free receipt path, and by the verdicts to retry.  A completed receipt stays.
-/

open Interleave Interleave.Program

namespace RabiRoute.DurableDelivery

variable {R : Type}

abbrev DeliveryConfig (R : Type) : Type :=
  Config (DeliveryState R) (Cmd R) Cmd.Response Thread DeliveryError (Option (Outcome R))

variable {calls : Calls R}

theorem total_mono {f g : CallId → Nat} (h : ∀ t, f t ≤ g t) : total calls f ≤ total calls g :=
  Finset.sum_le_sum fun t _ => h t

theorem total_add {f g : CallId → Nat} : total calls (fun t => f t + g t) = total calls f + total calls g :=
  Finset.sum_add_distrib

theorem Inv.total_delivers_le {s : DeliveryState R} (hinv : Inv calls s) :
    total calls s.delivers ≤ 1 + total calls s.retries + total calls s.removals := by
  have hsends : total calls s.delivers ≤ total calls s.creates + total calls s.retries := by
    rw [← total_add]
    exact total_mono fun t => (hinv.counts t).sends
  have hpaid := hinv.paid
  split at hpaid <;> omega

/-! ## What a step does to the receipt -/

/-- The receipt path and the file that it names are as they were. -/
def Untouched (s s' : DeliveryState R) : Prop :=
  s'.path = s.path ∧ ∀ i, s.path = some i → s'.file i = s.file i

theorem Untouched.refl (s : DeliveryState R) : Untouched s s :=
  ⟨rfl, fun _ _ => rfl⟩

theorem Untouched.trans {s s' s'' : DeliveryState R} (h : Untouched s s') (h' : Untouched s' s'') : Untouched s s'' :=
  ⟨h'.1.trans h.1, fun i hi => (h'.2 i (h.1.trans hi)).trans (h.2 i hi)⟩

theorem Untouched.holds {s s' : DeliveryState R} (h : Untouched s s') {i : Nat} {r : Receipt R}
    (hi : Holds s i r) : Holds s' i r :=
  ⟨h.1.trans hi.1, by rw [h.2 i hi.1]; exact hi.2⟩

/-- The six steps that reach the receipt; every other step leaves it alone. -/
theorem execLive_effect {thread : Thread} {s s' : DeliveryState R} {c : Cmd R} {ch : Choice R}
    {a : c.Response} (h : execLive calls thread s c ch = some (a, s')) :
    Untouched s s' ∨ (s.path = none ∧ s' = s.create thread.id) ∨
      (∃ fd content, s' = s.write thread.id fd content) ∨
      (∃ r, s' = s.replace calls thread.id r) ∨ s' = s.remove calls thread.id ∨
      ∃ fd mtimeMs, s' = s.touch calls thread.id fd mtimeMs := by
  revert a
  apply execLive.fun_cases_unfolding calls thread s fun _ _ out => ∀ {a}, out = some (a, s') →
    Untouched s s' ∨ (s.path = none ∧ s' = s.create thread.id) ∨
      (∃ fd content, s' = s.write thread.id fd content) ∨
      (∃ r, s' = s.replace calls thread.id r) ∨ s' = s.remove calls thread.id ∨
      ∃ fd mtimeMs, s' = s.touch calls thread.id fd mtimeMs
  all_goals
    intros
    cases ‹_ = some _› <;>
    first
      | exact .inl ⟨rfl, fun _ _ => rfl⟩
      | exact .inl ⟨by split <;> rfl, fun _ _ => by split <;> rfl⟩
      | exact .inr (.inl ⟨by assumption, rfl⟩)
      | exact .inr (.inr (.inl ⟨_, _, rfl⟩))
      | exact .inr (.inr (.inr (.inl ⟨_, rfl⟩)))
      | exact .inr (.inr (.inr (.inr (.inl rfl))))
      | exact .inr (.inr (.inr (.inr (.inr ⟨_, _, rfl⟩))))

/-- A step of a call that may not act on the stored receipt leaves the receipt alone. -/
theorem execLive_untouched {thread : Thread} {s s' : DeliveryState R} {c : Cmd R} {ch : Choice R}
    {a : c.Response} {r : Receipt R} (hinv : Inv calls s) (hlicensed : s'.trespass = false)
    (h : execLive calls thread s c ch = some (a, s')) (hr : s.stored = some r)
    (hnot : ¬ (r.requestDigest = calls.digest thread.id ∧ r.state ≠ .completed ∧
      (s.executing thread.id = true → r.executionId = some thread.id))) : Untouched s s' := by
  obtain ⟨i, hi⟩ := stored_eq_some.mp hr
  have hreplace : s.mayReplace calls thread.id = false := by
    unfold DeliveryState.mayReplace
    rw [hr]
    simpa using hnot
  rcases execLive_effect h with hsame | ⟨hfree, rfl⟩ | ⟨fd, content, rfl⟩ | ⟨next, rfl⟩ | rfl |
    ⟨fd, mtimeMs, rfl⟩
  · exact hsame
  · simp [hi.1] at hfree
  · have hfd := init_elsewhere hinv hi thread.id fd
    change (s.trespass || !(decide (s.initialising thread.id = some fd))) = false at hlicensed
    simp [hfd] at hlicensed
  · change (s.trespass || !(s.mayReplace calls thread.id)) = false at hlicensed
    simp [hreplace] at hlicensed
  · change (s.trespass || !(s.mayReplace calls thread.id)) = false at hlicensed
    simp [hreplace] at hlicensed
  · change (s.trespass || !(s.mayRenew calls thread.id fd)) = false at hlicensed
    simp only [hinv.licensed, Bool.false_or, Bool.not_eq_false', DeliveryState.mayRenew, hr,
      Option.any_some, Bool.and_eq_true, decide_eq_true_eq] at hlicensed
    obtain ⟨-, hdigest, hstate, howner⟩ := hlicensed
    exact absurd ⟨hdigest, by simp [hstate], fun _ => howner⟩ hnot

/-- The outcome of a thread that is a call. -/
def Answered (calls : Calls R) (thread : Thread) (answer : Option (Outcome R))
    (s : DeliveryState R) : Prop :=
  ∀ t outcome, thread = .call t → answer = some outcome → Agreed calls t outcome s

abbrev VerifiedDelivery (calls : Calls R) (cfg : DeliveryConfig R) : Prop :=
  Verified (machine calls) (fun _ _ _ _ ↦ True) (discipline calls) (Answered calls)
    (fun _ _ _ ↦ True) cfg

/-- In `cfg` the thread can perform `c` and leave `s'`. -/
def CanStep (calls : Calls R) (cfg : DeliveryConfig R) (thread : Thread) (c : Cmd R)
    (s' : DeliveryState R) : Prop :=
  ∃ k ch a, cfg.prog thread = .step c k ∧ exec calls thread c ch cfg.shared = some (a, s')

theorem CanStep.licensed {cfg : DeliveryConfig R} {thread : Thread} {c : Cmd R}
    {s' : DeliveryState R} (hv : VerifiedDelivery calls cfg) (h : CanStep calls cfg thread c s') :
    s'.trespass = false ∧ ∃ ch a, execLive calls thread cfg.shared c ch = some (a, s') := by
  obtain ⟨k, ch, a, hprog, hexec⟩ := h
  have hwp := hv.2 thread cfg.shared (.self hv.1)
  rw [hprog] at hwp
  exact ⟨(hwp ch a s' trivial hexec).1.inv.licensed, ch, a, (exec_some hexec).2⟩

theorem CanStep.untouched {cfg : DeliveryConfig R} {thread : Thread} {c : Cmd R}
    {s' : DeliveryState R} {r : Receipt R} (hv : VerifiedDelivery calls cfg)
    (h : CanStep calls cfg thread c s') (hr : cfg.shared.stored = some r)
    (hnot : ¬ (r.requestDigest = calls.digest thread.id ∧ r.state ≠ .completed ∧
      (cfg.shared.executing thread.id = true → r.executionId = some thread.id))) :
    Untouched cfg.shared s' := by
  obtain ⟨hlicensed, ch, a, hexec⟩ := h.licensed hv
  exact execLive_untouched hv.1 hlicensed hexec hr hnot

theorem next_untouched {cfg cfg' : DeliveryConfig R} {l : Label Thread (Choice R) Event} {i : Nat} {r : Receipt R} (hv :
    VerifiedDelivery calls cfg) (hi : Holds cfg.shared i r) (hstate : r.state = .completed) (hnext : (machine
    calls).next cfg l = some cfg') : Untouched cfg.shared cfg'.shared := by
  cases l with
  | event e =>
    simp only [Machine.next, Option.map_eq_some_iff] at hnext
    obtain ⟨s', he, rfl⟩ := hnext
    cases e <;> simp only [machine, event, Option.some.injEq] at he <;> subst he <;>
      exact ⟨rfl, fun _ _ => rfl⟩
  | run thread ch =>
    cases hprog : cfg.prog thread with
    | ret a => simp [Machine.next, hprog] at hnext
    | raise e => simp [Machine.next, hprog] at hnext
    | step c k =>
      simp only [Machine.next, hprog, Option.map_eq_some_iff] at hnext
      obtain ⟨⟨a, s'⟩, hexec, rfl⟩ := hnext
      exact CanStep.untouched hv ⟨k, ch, a, hprog, hexec⟩ hi.stored fun h => h.2.1 hstate

/-- Nothing that follows changes a completed receipt. -/
theorem reach_untouched {cfg cfg' : DeliveryConfig R} {i : Nat} {r : Receipt R}
    (hv : VerifiedDelivery calls cfg) (hi : Holds cfg.shared i r) (hstate : r.state = .completed)
    (hreach : (machine calls).Reach cfg cfg') : Untouched cfg.shared cfg'.shared := by
  induction hreach with
  | refl => exact .refl _
  | next l hpre _ hnext ih =>
    exact ih.trans (next_untouched (hv.reach (fun _ _ _ => event_keeps) hpre) (ih.holds hi) hstate
      hnext)

section Runs

variable [DecidableEq R]

theorem wp_program {thread : Thread} {s : DeliveryState R} (hinv : Inv calls s)
    (hfresh : ∀ t, thread = .call t → s.executing t = false) :
    triple calls thread (program calls thread) (Answered calls thread) (fun _ _ => True) s := by
  cases thread with
  | heartbeat t =>
    have hdone : ∀ s' : DeliveryState R, Answered calls (.heartbeat t) none s' := fun _ _ _ ht => by cases ht
    simp only [program]
    split
    · exact wp_bind (wp_mono (wp_heartbeatWorker hinv) (fun _ s' _ => hdone s') fun _ _ _ => trivial)
    · exact hdone s
  | call t =>
    simp only [program]
    split
    case isFalse => exact fun _ _ _ hnone => (by cases hnone)
    case isTrue ht =>
      have h : Fresh calls t s := ⟨hinv, hfresh t rfl⟩
      refine wp_bind (wp_mono (Q := Closed calls t) (E := fun _ => Inv calls) ?_
        (fun outcome s' hclosed => ?_) fun _ _ _ => trivial)
      · split
        · exact wp_executeDurableDelivery ht h
        · exact wp_reconcileDurableDelivery h
      · rintro u outcome' ⟨⟩ ⟨⟩
        exact hclosed.agreed

theorem inv_initial (calls : Calls R) (now : Nat) : Inv calls (initial calls now).shared := by
  refine ⟨(fun _ hi => by cases hi), (fun _ _ hi => by cases hi), (fun _ _ _ hi => by cases hi),
    fun _ => ⟨Nat.le_refl _, Nat.le_refl _, fun _ => rfl, fun _ => rfl⟩, ?_, rfl⟩
  show total calls (fun _ => 0) ≤ total calls (fun _ => 0) + 0
  exact Nat.le_refl _

theorem verified_initial (calls : Calls R) (now : Nat) : VerifiedDelivery calls (initial calls now) :=
  ⟨inv_initial calls now, fun _ _ hl => wp_program hl.inv fun t ht => (hl.rely.marks t ht).executing⟩

theorem verified_reach {calls : Calls R} {now : Nat} {cfg : DeliveryConfig R}
    (h : (machine calls).Reach (initial calls now) cfg) : VerifiedDelivery calls cfg :=
  (verified_initial calls now).reach (fun _ _ _ => event_keeps) h

/-! ## How often a delivery is sent -/

/-- The calls of `deliver` are at most one more than the verdicts to retry and the receipts that
were removed, each after an own `retryableRejection`; without these callbacks it is called once. -/
theorem delivers_bounded (calls : Calls R) (now : Nat) (cfg : DeliveryConfig R)
    (h : (machine calls).Reach (initial calls now) cfg) :
    total calls cfg.shared.delivers ≤
        1 + total calls cfg.shared.retries + total calls cfg.shared.removals ∧
      (∀ t, cfg.shared.removals t ≤ cfg.shared.rejections t) ∧
      ((∀ t, calls.hasRecover t = false) → (∀ t, calls.hasRetryableRejection t = false) →
        total calls cfg.shared.delivers ≤ 1) := by
  have hinv : Inv calls cfg.shared := (verified_reach h).1
  refine ⟨hinv.total_delivers_le, fun t ↦ (hinv.counts t).removes, fun hrecover hreject ↦ ?_⟩
  have hretries : total calls cfg.shared.retries = 0 :=
    Finset.sum_eq_zero fun t _ ↦ (hinv.counts t).recovers (hrecover t)
  have hremovals : total calls cfg.shared.removals = 0 := by
    refine Finset.sum_eq_zero fun t _ ↦ ?_
    have hnone := (hinv.counts t).rejects (hreject t)
    have := (hinv.counts t).removes
    omega
  have := hinv.total_delivers_le
  omega

/-! ## What a completed receipt is worth -/

/-- What the calls owe each other about the receipt, at one point of a run. -/
structure ReceiptAgreement (calls : Calls R) (cfg : DeliveryConfig R) : Prop where
  /-- A completed receipt is there for good, byte for byte. -/
  final : ∀ r cfg', cfg.shared.stored = some r → r.state = .completed →
    (machine calls).Reach cfg cfg' → Untouched cfg.shared cfg'.shared
  /-- A call that has answered `completed` has answered the stored result of its own payload, or a
  result that its own `retryableRejection` accepted. -/
  agreed : ∀ t id duplicate result settlement,
    cfg.prog (.call t) = .ret (some (.completed id duplicate result settlement)) →
      cfg.shared.rejection t ≠ some result →
      ∃ r, cfg.shared.stored = some r ∧ r.state = .completed ∧ r.result = some result ∧
        r.requestDigest = calls.digest t
  /-- Calls of another payload, and their workers, leave the receipt alone. -/
  foreign : ∀ thread c s' r, CanStep calls cfg thread c s' → cfg.shared.stored = some r →
    r.requestDigest ≠ calls.digest thread.id → Untouched cfg.shared s'
  /-- So do executions that the receipt does not name any more. -/
  fenced : ∀ thread c s' r, CanStep calls cfg thread c s' → cfg.shared.stored = some r →
    cfg.shared.executing thread.id = true → r.executionId ≠ some thread.id → Untouched cfg.shared s'
  /-- Only a call that has reserved or claimed the receipt sends or recovers. -/
  sends : ∀ thread c s', CanStep calls cfg thread c s' → (c = .deliver ∨ ∃ error, c = .recover error) →
    cfg.shared.executing thread.id = true
  /-- Only a call that has read a receipt of its own payload verifies. -/
  verifies : ∀ thread receipt s', CanStep calls cfg thread (.verify receipt) s' →
    cfg.shared.observed thread.id = true

theorem receipt_agreed (calls : Calls R) (now : Nat) (cfg : DeliveryConfig R)
    (h : (machine calls).Reach (initial calls now) cfg) : ReceiptAgreement calls cfg := by
  have hv := verified_reach h
  have hclean : cfg.shared.trespass = false := hv.1.licensed
  refine ⟨fun r cfg' hr hstate hreach ↦ ?_, fun t id duplicate result settlement hprog hrejection ↦ ?_,
    fun thread c s' r hstep hr hdigest ↦ hstep.untouched hv hr fun hmay ↦ hdigest hmay.1,
    fun thread c s' r hstep hr hexecuting howner ↦
      hstep.untouched hv hr fun hmay ↦ howner (hmay.2.2 hexecuting), ?_, ?_⟩
  · obtain ⟨i, hi⟩ := stored_eq_some.mp hr
    exact reach_untouched hv hi hstate hreach
  · have hwp := hv.2 (.call t) cfg.shared (.self hv.1)
    rw [hprog] at hwp
    rcases hwp t _ rfl rfl id duplicate result settlement rfl with ⟨i, r, hi, hcompleted⟩ | hrejected
    · exact ⟨r, hi.stored, hcompleted⟩
    · exact absurd hrejected hrejection
  · intro thread c s' hstep hc
    obtain ⟨hlicensed, ch, a, hexec⟩ := hstep.licensed hv
    rcases hc with rfl | ⟨error, rfl⟩
    · simp only [execLive, Option.some.injEq, Prod.mk.injEq] at hexec
      obtain ⟨-, rfl⟩ := hexec
      change (cfg.shared.trespass || !(cfg.shared.executing thread.id)) = false at hlicensed
      simpa [hclean] using hlicensed
    · simp only [execLive, Option.some.injEq, Prod.mk.injEq] at hexec
      obtain ⟨-, rfl⟩ := hexec
      change (cfg.shared.trespass || !(cfg.shared.executing thread.id)) = false at hlicensed
      simpa [hclean] using hlicensed
  · intro thread receipt s' hstep
    obtain ⟨hlicensed, ch, a, hexec⟩ := hstep.licensed hv
    simp only [execLive, Option.some.injEq, Prod.mk.injEq] at hexec
    obtain ⟨-, rfl⟩ := hexec
    change (cfg.shared.trespass || !(cfg.shared.observed thread.id)) = false at hlicensed
    simpa [hclean] using hlicensed

end Runs

/-! ## A run with a takeover -/

/-- Calls 0 and 1 are of one payload and of two hosts, call 2 is of another payload. -/
def threeCalls : Calls Nat where
  count := 3
  deliveryId := 0
  kind _ := .execute
  digest t := if t = 2 then 1 else 0
  host t := if t = 0 then ['a'] else ['b']
  pid t := t + 1
  executionLeaseMs _ := some 100
  hasRecover _ := true
  recoverExistingUncertain _ := false
  hasRetryableRejection t := decide (t = 1)
  waitForCompletionMs _ := 0
  turns _ := 2
  renewals _ := 1
  textLength _ := 300

def callSteps (n : Nat) (t : CallId) : List (Label Thread (Choice Nat) Event) :=
  List.replicate n (.run (.call t) .ok)

def heartbeatSteps (n : Nat) (t : CallId) : List (Label Thread (Choice Nat) Event) :=
  List.replicate n (.run (.heartbeat t) .ok)

/-- Call 0 reserves and stops before its send until its lease has expired; call 1 claims the
receipt, is told to retry, sends and removes the receipt after a retryable rejection; call 2 reserves
and completes the delivery. -/
def takeover : List (Label Thread (Choice Nat) Event) :=
  callSteps 11 0 ++ heartbeatSteps 19 0 ++ callSteps 2 0 ++ [.event (.tick 1000)] ++
    callSteps 29 1 ++ heartbeatSteps 19 1 ++ callSteps 3 1 ++
    [.run (.call 1) (.recovered .retry)] ++ callSteps 3 1 ++ [.run (.call 1) (.delivered 7)] ++
    callSteps 1 1 ++ [.run (.call 1) (.rejects true)] ++ callSteps 8 1 ++
    callSteps 11 2 ++ heartbeatSteps 19 2 ++ callSteps 3 2 ++ [.run (.call 2) (.delivered 8)] ++
    callSteps 9 2

/-- The next step of the program is a send. -/
def aboutToDeliver {A : Type} : Interleave.Program (Cmd Nat) Cmd.Response DeliveryError A → Bool
  | .step .deliver _ => true
  | _ => false

/-- The receipt of call 2 is completed, and call 0 is about to send. -/
theorem takeover_reached : ∃ cfg, (machine threeCalls).Reach (initial threeCalls 0) cfg ∧
    (∃ s', CanStep threeCalls cfg (.call 0) .deliver s') ∧
      (∃ r, cfg.shared.stored = some r ∧ r.state = .completed ∧ r.requestDigest = 1) ∧
      total threeCalls cfg.shared.delivers = 2 := by
  have hrun : ((machine threeCalls).run (initial threeCalls 0) takeover).any
      (fun cfg => aboutToDeliver (cfg.prog (.call 0)) &&
        threeCalls.alive cfg.shared 0 &&
        cfg.shared.stored.any (fun r => decide (r.state = .completed ∧ r.requestDigest = 1)) &&
        decide (cfg.shared.delivers 0 = 0 ∧ cfg.shared.delivers 1 = 1 ∧
          cfg.shared.delivers 2 = 1)) = true := by
    decide +kernel
  obtain ⟨cfg, hcfg, hend⟩ := (Option.any_eq_true _ _).mp hrun
  simp only [Bool.and_eq_true, Option.any_eq_true, decide_eq_true_eq] at hend
  obtain ⟨⟨⟨hprog, halive⟩, r, hr, hstate, hdigest⟩, h₀, h₁, h₂⟩ := hend
  refine ⟨cfg, Machine.run_reach hcfg, ?_, ⟨r, hr, hstate, hdigest⟩, ?_⟩
  · unfold aboutToDeliver at hprog
    split at hprog
    case h_1 k hk =>
      have hruns : runs threeCalls cfg.shared (.call 0) = true := halive
      exact ⟨_, k, .ok, .ok (), hk, by rw [exec, if_pos hruns]; rfl⟩
    case h_2 => cases hprog
  · simp [total, threeCalls, Finset.sum_range_succ, h₀, h₁, h₂]

theorem delivers_bounded_takeover : ∃ cfg,
    (machine threeCalls).Reach (initial threeCalls 0) cfg ∧
      total threeCalls cfg.shared.delivers = 2 ∧
      total threeCalls cfg.shared.delivers ≤
        1 + total threeCalls cfg.shared.retries + total threeCalls cfg.shared.removals := by
  obtain ⟨cfg, hreach, -, -, htwo⟩ := takeover_reached
  exact ⟨cfg, hreach, htwo, (delivers_bounded threeCalls 0 cfg hreach).1⟩

theorem receipt_agreed_takeover : ∃ cfg,
    (machine threeCalls).Reach (initial threeCalls 0) cfg ∧
      (∃ r, cfg.shared.stored = some r ∧ r.state = .completed) ∧ ReceiptAgreement threeCalls cfg := by
  obtain ⟨cfg, hreach, -, ⟨r, hr, hstate, -⟩, -⟩ := takeover_reached
  exact ⟨cfg, hreach, ⟨r, hr, hstate⟩, receipt_agreed threeCalls 0 cfg hreach⟩

/-- A call never sends while the stored receipt is of another payload. -/
def ForeignNeverSends (calls : Calls R) (cfg : DeliveryConfig R) : Prop :=
  ∀ thread s' r, CanStep calls cfg thread .deliver s' → cfg.shared.stored = some r →
    r.requestDigest = calls.digest thread.id

/-- Call 0 has lost its receipt, to call 1 and then to call 2, and sends all the same. -/
theorem foreign_call_sends : ¬ ∀ cfg,
    (machine threeCalls).Reach (initial threeCalls 0) cfg → ForeignNeverSends threeCalls cfg := by
  intro hall
  obtain ⟨cfg, hreach, ⟨s', hstep⟩, ⟨r, hr, -, hdigest⟩, -⟩ := takeover_reached
  have hsame : r.requestDigest = 0 := hall cfg hreach (.call 0) s' r hstep hr
  rw [hdigest] at hsame
  cases hsame

end RabiRoute.DurableDelivery
