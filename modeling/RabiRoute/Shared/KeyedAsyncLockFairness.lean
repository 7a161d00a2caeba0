import RabiRoute.Shared.KeyedAsyncLockOrder

/-!
# The lock is fair

The microtasks of the lock come to an end, and then only a running `operation` of the same key holds a call back.
-/

namespace RabiRoute.KeyedAsyncLock

open Collections Transitions

variable {calls : List Call} {s : State} {i j : Nat} {c c' d : Call} {jobs : List Job}

/-! ## The queue runs dry -/

/-- The stages before the last one. -/
def Tail.left : Tail → Nat
  | .blocked => 6
  | .catching => 5
  | .returning => 4
  | .adopting => 3
  | .adopted => 2
  | .settling => 1
  | .resolved => 0

def Phase.left : Phase → Nat
  | .blocked => 5
  | .catching => 4
  | .resuming => 3
  | .running => 2
  | .settled => 1
  | .finished => 0

def Call.left (c : Call) : Nat := c.tail.left + c.phase.left

/-- A job that is taken moves a stage on and queues at most one job for each stage that it moves. -/
def State.measure (s : State) : Nat := 2 * (s.calls.map Call.left).sum + s.queue.length

theorem sum_set (c' : Call) (hi : calls[i]? = some c) :
    ((calls.set i c').map Call.left).sum + c.left = (calls.map Call.left).sum + c'.left := by
  induction calls generalizing i with
  | nil => cases hi
  | cons d calls ih =>
    cases i with
    | zero =>
      cases hi
      simp only [List.set_cons_zero, List.map_cons, List.sum_cons]
      omega
    | succ i =>
      have hrest := ih hi
      simp only [List.set_cons_succ, List.map_cons, List.sum_cons]
      omega

theorem measure_put (hi : s.calls[i]? = some c) (hleft : c'.left < c.left) (hjobs : jobs.length ≤ 1) :
    (s.put i c' jobs).measure ≤ s.measure := by
  have hsum := sum_set c' hi
  show 2 * ((s.calls.set i c').map Call.left).sum + (s.queue ++ jobs).length ≤ _
  unfold State.measure
  rw [List.length_append]
  omega

theorem measure_finish (hi : s.calls[i]? = some c) (hsettled : c.phase = .settled) :
    (s.finish i c).measure ≤ s.measure := by
  have hsum := sum_set (released c) hi
  have hleft : (released c).left < c.left := by
    unfold Call.left released
    rw [hsettled]
    by_cases ht : c.tail = .adopted
    · rw [if_pos ht, ht]
      show 1 + 0 < 2 + 1
      decide
    · rw [if_neg ht]
      exact Nat.lt_succ_self _
  rw [finish_eq]
  unfold State.measure
  dsimp only
  rw [List.length_append]
  by_cases ht : c.tail = .adopted
  · rw [if_pos ht, List.length_singleton]
    omega
  · rw [if_neg ht, List.length_nil]
    omega

/-- Each call that is woken leaves two stages for its two jobs. -/
theorem sum_wake (i : Nat) (hblocked : ∀ d ∈ calls, d.phase = .blocked → d.tail = .blocked) :
    ((calls.map (wake i)).map Call.left).sum + 2 * calls.countP (State.waitsFor i) ≤ (calls.map Call.left).sum := by
  induction calls with
  | nil => exact Nat.le_refl _
  | cons d calls ih =>
    have hrest := ih fun e he => hblocked e (List.mem_cons_of_mem _ he)
    simp only [List.map_cons, List.sum_cons, List.countP_cons]
    by_cases hw : State.waitsFor i d = true
    · have hp := (waitsFor_iff.mp hw).2
      have ht := hblocked d List.mem_cons_self hp
      have hd : d.left = 11 := by unfold Call.left; rw [hp, ht]; rfl
      have hwake : (wake i d).left = 9 := by unfold wake; rw [if_pos hw]; rfl
      rw [if_pos hw, hd, hwake]
      omega
    · have hwake : wake i d = d := if_neg hw
      rw [if_neg hw, hwake]
      omega

theorem length_followers {R : List Call} :
    ((R.zipIdx.filter fun e => State.waitsFor i e.1).flatMap fun e => [Job.tail e.2, Job.body e.2]).length =
      2 * R.countP (State.waitsFor i) := by
  have hcount : R.countP (State.waitsFor i) = (R.zipIdx.filter fun e => State.waitsFor i e.1).length := by
    conv_lhs => rw [← List.zipIdx_map_fst 0 R, List.countP_map]
    exact List.countP_eq_length_filter
  rw [hcount]
  generalize R.zipIdx.filter (fun e => State.waitsFor i e.1) = followers
  induction followers with
  | nil => rfl
  | cons e followers ih =>
    rw [List.flatMap_cons, List.length_append, ih]
    simp only [List.length_cons, List.length_nil]
    omega

theorem measure_resolveTail (h : Chained s.calls) (hi : s.calls[i]? = some c) (ht : c.tail = .settling) :
    (s.resolveTail i c).measure ≤ s.measure := by
  have hfin : c.phase = .finished := (h.stages i c hi).released (.inl ht)
  have hsum := sum_set { c with tail := .resolved } hi
  have hleft : Call.left { c with tail := .resolved } + 1 = c.left := by
    unfold Call.left
    rw [ht, hfin]
    rfl
  have hblocked : ∀ d ∈ s.calls.set i { c with tail := .resolved }, d.phase = .blocked → d.tail = .blocked := by
    intro d hd hp
    rcases List.mem_or_eq_of_mem_set hd with hmem | rfl
    · obtain ⟨j, hj⟩ := List.mem_iff_getElem?.mp hmem
      exact (h.stages j d hj).together.mpr hp
    · rw [hfin] at hp
      cases hp
  have hwake := sum_wake i hblocked
  rw [resolveTail_eq]
  unfold State.measure
  dsimp only
  rw [List.length_append, List.append_nil, length_followers]
  omega

theorem measure_tailJob (h : Chained s.calls) (hi : s.calls[i]? = some c) : (s.tailJob i c).measure ≤ s.measure := by
  have hput : ∀ t : Tail, t.left < c.tail.left → ∀ jobs : List Job, jobs.length ≤ 1 →
      (s.put i { c with tail := t } jobs).measure ≤ s.measure :=
    fun t ht jobs hjobs => measure_put hi (Nat.add_lt_add_right ht _) hjobs
  unfold State.tailJob
  split
  case h_1 ht => exact hput _ (by rw [ht]; decide) _ (Nat.le_refl _)
  case h_2 ht => exact hput _ (by rw [ht]; decide) _ (Nat.le_refl _)
  case h_3 ht =>
    split
    · exact hput _ (by rw [ht]; decide) _ (Nat.le_refl _)
    · exact hput _ (by rw [ht]; decide) _ (Nat.zero_le _)
  case h_4 ht => exact measure_resolveTail h hi ht
  all_goals exact Nat.le_refl _

theorem measure_bodyJob (hi : s.calls[i]? = some c) : (s.bodyJob i c).measure ≤ s.measure := by
  have hput : ∀ ph : Phase, ph.left < c.phase.left → ∀ jobs : List Job, jobs.length ≤ 1 →
      (s.put i { c with phase := ph } jobs).measure ≤ s.measure :=
    fun ph hph jobs hjobs => measure_put hi (Nat.add_lt_add_left hph _) hjobs
  unfold State.bodyJob
  split
  case h_1 hp => exact hput _ (by rw [hp]; decide) _ (Nat.le_refl _)
  case h_2 hp => exact hput _ (by rw [hp]; decide) _ (Nat.zero_le _)
  case h_3 hp => exact measure_finish hi hp
  all_goals exact Nat.le_refl _

theorem measure_microtask {s' : State} (h : Sound s) (hs : s.microtask = some s') : s'.measure < s.measure := by
  unfold State.microtask at hs
  split at hs
  case h_1 => cases hs
  case h_2 job rest hq =>
    cases hs
    have hpopped : State.measure { s with queue := rest } < s.measure := by
      unfold State.measure
      rw [hq, List.length_cons]
      exact Nat.lt_succ_self _
    apply Nat.lt_of_le_of_lt _ hpopped
    cases job with
    | tail i =>
      show ((s.calls[i]?).elim _ _ : State).measure ≤ _
      cases hi : s.calls[i]? with
      | none => exact Nat.le_refl _
      | some c => exact measure_tailJob h.chained hi
    | body i =>
      show ((s.calls[i]?).elim _ _ : State).measure ≤ _
      cases hi : s.calls[i]? with
      | none => exact Nat.le_refl _
      | some c => exact measure_bodyJob hi

/-- The microtasks alone empty the queue. -/
theorem Sound.drains (h : Sound s) :
    ∃ s', keyedAsyncLock.ReachUnder (fun e _ => e = .microtask) s s' ∧ s'.queue = [] := by
  induction hm : s.measure using Nat.strong_induction_on generalizing s with
  | _ m ih =>
    cases hq : s.queue with
    | nil => exact ⟨s, .refl, hq⟩
    | cons job rest =>
      have hs : s.microtask = some (State.perform { s with queue := rest } job) := by
        unfold State.microtask
        rw [hq]
      obtain ⟨s', hreach, hempty⟩ := ih _ (hm ▸ measure_microtask h hs) (h.microtask hs) rfl
      have hstep : keyedAsyncLock.step .microtask s = some ((), State.perform { s with queue := rest } job) := by
        show s.microtask.map _ = _
        rw [hs]
        rfl
      exact ⟨s', .trans (.next .microtask () .refl rfl hstep) hreach, hempty⟩

/-! ## The mutex -/

/-- With nothing queued, a call that has not started waits for a running one of its key. -/
theorem Sound.waits_for_running (h : Sound s) (hq : s.queue = []) (hd : s.calls[j]? = some d) (hwaits :
    d.phase.hasStarted = false) : ∃ i c, i < j ∧ s.calls[i]? = some c ∧ c.key = d.key ∧ c.phase = .running := by
  have hnone : ∀ job, ¬ Needs s.calls job := by
    intro job hn
    have hmem := h.queued job hn
    rw [hq] at hmem
    cases hmem
  induction j using Nat.strong_induction_on generalizing d with
  | _ j ih =>
    have hblocked : d.phase = .blocked := by
      cases hp : d.phase with
      | blocked => rfl
      | catching | resuming => exact absurd ⟨d, hd, by rw [hp]; rfl⟩ (hnone (.body j))
      | running | settled | finished =>
        rw [hp] at hwaits
        cases hwaits
    have hpending := h.chained.pending j d hd hblocked
    cases hprev : d.previous with
    | none =>
      rw [hprev] at hpending
      cases hpending
    | some p =>
      rw [hprev] at hpending
      obtain ⟨c, hc, ht⟩ := isPending_some.mp hpending
      have hlast := h.chained.previous j d p hd hprev
      have hkey : c.key = d.key := by
        obtain ⟨e, he, hk⟩ := hlast.key
        rw [hc] at he
        cases he
        exact hk
      have hearlier : c.phase.hasStarted = false → ∃ i e, i < j ∧ s.calls[i]? = some e ∧ e.key = d.key ∧
          e.phase = .running := by
        intro hstart
        obtain ⟨i, e, hi, he, hk, hr⟩ := ih p hlast.lt hc hstart
        exact ⟨i, e, Nat.lt_trans hi hlast.lt, he, hk.trans hkey, hr⟩
      cases hp : c.phase with
      | running => exact ⟨p, c, hlast.lt, hc, hkey, hp⟩
      | settled => exact absurd ⟨c, hc, by rw [hp]; rfl⟩ (hnone (.body p))
      | blocked | catching | resuming => exact hearlier (by rw [hp]; rfl)
      | finished =>
        -- `current` is resolved, so the tail is on its way and has a job.
        have hok := h.chained.stages p c hc
        cases htail : c.tail with
        | resolved => exact absurd htail ht
        | adopted => exact absurd hp (hok.adopted htail)
        | blocked =>
          rw [hok.together.mp htail] at hp
          cases hp
        | catching | returning | adopting | settling =>
          exact absurd ⟨c, hc, by rw [htail]; rfl⟩ (hnone (.tail p))

/-- A fair mutex for each key. -/
structure FairMutex (s : State) : Prop where
  exclusive : ∀ (i j : Nat) (c d : Call), s.calls[i]? = some c → s.calls[j]? = some d → c.key = d.key →
    c.phase = .running → d.phase = .running → i = j
  /-- An `operation` is called after all earlier calls of the key have finished. -/
  inOrder : ∀ (i j : Nat) (c d : Call), s.calls[i]? = some c → s.calls[j]? = some d → c.key = d.key → i < j →
    d.phase.hasStarted = true → c.phase = .finished
  /-- A call settles as its own `operation` does. -/
  ownResult : ∀ (i : Nat) (c : Call), s.calls[i]? = some c → c.phase = .finished →
    c.operation.isSome = true ∧ c.result = c.operation
  /-- Only a running call of the same key holds a call back, not one that has rejected nor one of another key. -/
  heldBack : s.queue = [] → ∀ (j : Nat) (d : Call), s.calls[j]? = some d → d.phase.hasStarted = false →
    ∃ i c, i < j ∧ s.calls[i]? = some c ∧ c.key = d.key ∧ c.phase = .running
  /-- The entry of a key goes with the last `finally` block. -/
  removed : ∀ k, (∀ (i : Nat) (c : Call), s.calls[i]? = some c → c.key = k → c.phase = .finished) →
    s.tails.get? k = none
  removedIdle : s.queue = [] → ∀ k, (∀ (i : Nat) (c : Call), s.calls[i]? = some c → c.key = k →
    c.operation.isSome = true) → s.tails.get? k = none

theorem Sound.fairMutex (h : Sound s) : FairMutex s := by
  have hblocked : ∀ d : Call, d.phase.hasStarted = true → d.phase ≠ .blocked := by
    intro d hs hb
    rw [hb] at hs
    cases hs
  have horder : ∀ (i j : Nat) (c d : Call), s.calls[i]? = some c → s.calls[j]? = some d → c.key = d.key → i < j →
      d.phase.hasStarted = true → c.phase = .finished :=
    fun i j c d hc hd hk hlt hs => h.chained.finished i j c d hc hd hk hlt (hblocked d hs)
  have hremoved : ∀ k, (∀ (i : Nat) (c : Call), s.calls[i]? = some c → c.key = k → c.phase = .finished) →
      s.tails.get? k = none := by
    intro k hall
    cases hget : s.tails.get? k with
    | none => rfl
    | some i =>
      obtain ⟨c, hc, hk, hopen, -⟩ := h.mapped.named k i hget
      exact absurd (hall i c hc hk) hopen
  refine ⟨fun i j c d hc hd hk hci hdj => ?_, horder, fun i c hc hf => ?_, fun hq j d hd hs =>
    h.waits_for_running hq hd hs, hremoved, fun hq k hall => hremoved k fun i c hc hk => ?_⟩
  · rcases Nat.lt_trichotomy i j with hlt | heq | hgt
    · have hf := horder i j c d hc hd hk hlt (by rw [hdj]; rfl)
      rw [hci] at hf
      cases hf
    · exact heq
    · have hf := horder j i d c hd hc hk.symm hgt (by rw [hci]; rfl)
      rw [hdj] at hf
      cases hf
  · have hok := h.chained.stages i c hc
    exact ⟨hok.operation.mpr (.inr hf), by rw [hok.result, if_pos hf]⟩
  · rcases (h.chained.stages i c hc).operation.mp (hall i c hc hk) with hsettled | hf
    · have hmem := h.queued (.body i) ⟨c, hc, by rw [hsettled]; rfl⟩
      rw [hq] at hmem
      cases hmem
    · exact hf

/-- In every run of `KeyedAsyncLock` the lock is a fair mutex for each key, and its microtasks come to an end. -/
theorem lock_fair (h : keyedAsyncLock.Reach .empty s) :
    FairMutex s ∧ ∃ s', keyedAsyncLock.ReachUnder (fun e _ ↦ e = .microtask) s s' ∧ s'.queue = [] :=
  ⟨(sound_reached h).fairMutex, (sound_reached h).drains⟩

/-- The second call of a key runs after the first has rejected. -/
def rejectionEvents : List Event :=
  [.run (js "a"), .run (js "a"), .run (js "b"), .microtask, .microtask, .microtask, .microtask, .microtask, .microtask,
    .microtask, .microtask, .microtask, .microtask, .settle 0 .rejected, .microtask, .microtask, .microtask,
    .microtask, .microtask, .microtask]

def afterRejection : State := (keyedAsyncLock.run .empty rejectionEvents).getD .empty

theorem rejectionRun : keyedAsyncLock.run .empty rejectionEvents = some afterRejection := rfl

theorem lock_fair_rejection : (afterRejection.calls.map Call.phase = [.finished, .running, .running] ∧
    afterRejection.calls.map Call.result = [some .rejected, none, none]) ∧ FairMutex afterRejection ∧
      ∃ s', keyedAsyncLock.ReachUnder (fun e _ ↦ e = .microtask) afterRejection s' ∧ s'.queue = [] :=
  ⟨by decide, lock_fair (System.run_reach rejectionRun)⟩

end RabiRoute.KeyedAsyncLock
