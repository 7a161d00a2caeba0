import RabiRoute.Scheduling.HeartbeatSchedules

/-!
# Heartbeats inside their window

The daily window of a schedule as a recurring one, and when the next time falls in it without skipping the
occurrence that is open.
-/

open Periodic

namespace RabiRoute.Scheduling

/-! ## The daily window -/

theorem TimeOfDay.ms_nonneg (time : TimeOfDay) : 0 ≤ time.ms := by
  unfold TimeOfDay.ms secondMs
  omega

theorem TimeOfDay.ms_lt (time : TimeOfDay) : time.ms < dayMs := by
  have h := time.hours_le
  have h' := time.minutes_le
  have h'' := time.seconds_le
  unfold TimeOfDay.ms dayMs secondMs
  omega

/-- A window whose end is not after its start runs past midnight. -/
def dailyWindow (zone : Zone) (startTime endTime : TimeOfDay) : Window where
  period := dayMs
  first := startTime.ms - zone.offset
  length := endTime.ms - startTime.ms + if endTime.ms ≤ startTime.ms then dayMs else 0
  length_pos := by
    have := endTime.ms_nonneg
    have := startTime.ms_lt
    split <;> omega
  length_le := by
    have := endTime.ms_lt
    have := startTime.ms_nonneg
    split <;> omega

section Day

variable {zone : Zone} {startTime endTime : TimeOfDay} {now k : Int}

theorem midnight_le : zone.day now * dayMs - zone.offset ≤ now := by
  have := Int.ediv_mul_le (now + zone.offset) (b := dayMs) (by decide)
  unfold Zone.day
  omega

theorem lt_midnight : now < (zone.day now + 1) * dayMs - zone.offset := by
  have := Int.lt_ediv_add_one_mul_self (now + zone.offset) dayMs_pos
  unfold Zone.day
  omega

theorem start_dailyWindow : (dailyWindow zone startTime endTime).start k = zone.dateOf k startTime.ms := by
  show startTime.ms - zone.offset + k * dayMs = k * dayMs + startTime.ms - zone.offset
  ring

theorem day_add : zone.day (now + dayMs) = zone.day now + 1 := by
  unfold Zone.day
  rw [show now + dayMs + zone.offset = now + zone.offset + 1 * dayMs by ring, Int.add_mul_ediv_right _ _ (by decide)]

theorem day_start : zone.day ((dailyWindow zone startTime endTime).start k) = k := by
  rw [start_dailyWindow]
  unfold Zone.day Zone.dateOf
  rw [show k * dayMs + startTime.ms - zone.offset + zone.offset = startTime.ms + k * dayMs by ring,
    Int.add_mul_ediv_right _ _ (by decide), Int.ediv_eq_zero_of_lt startTime.ms_nonneg startTime.ms_lt, zero_add]

theorem windowBoundsFor_eq : windowBoundsFor zone now startTime endTime =
    ⟨(dailyWindow zone startTime endTime).start (zone.day now),
      (dailyWindow zone startTime endTime).stop (zone.day now)⟩ := by
  have hlength : (dailyWindow zone startTime endTime).length =
      endTime.ms - startTime.ms + if endTime.ms ≤ startTime.ms then dayMs else 0 := rfl
  unfold windowBoundsFor Window.stop
  simp only [addDays_eq]
  rw [start_dailyWindow, hlength]
  unfold atLocalTime Zone.dateOf
  congr 1
  split <;> split <;> omega

/-- The day of the window that is open or comes next. -/
def currentDay (zone : Zone) (w : Window) (now : Int) : Int :=
  if now < w.stop (zone.day now) then zone.day now else zone.day now + 1

theorem activeOrNextWindow_eq : activeOrNextWindow zone now startTime endTime =
    ⟨(dailyWindow zone startTime endTime).start (currentDay zone (dailyWindow zone startTime endTime) now),
      (dailyWindow zone startTime endTime).stop (currentDay zone (dailyWindow zone startTime endTime) now)⟩ := by
  unfold activeOrNextWindow currentDay
  simp only [windowBoundsFor_eq, addDays_eq, one_mul, day_add]
  split <;> rfl

theorem yesterday_lt : (dailyWindow zone startTime endTime).start (zone.day now - 1) < now := by
  have h : zone.day now * dayMs - zone.offset ≤ now := midnight_le
  have h' := startTime.ms_lt
  rw [start_dailyWindow]
  unfold Zone.dateOf
  rw [sub_mul]
  omega

theorem lt_tomorrow : now < (dailyWindow zone startTime endTime).start (zone.day now + 1) := by
  have h : now < (zone.day now + 1) * dayMs - zone.offset := lt_midnight
  have h' := startTime.ms_nonneg
  rw [start_dailyWindow]
  unfold Zone.dateOf
  omega

end Day

/-! ## Dates without their fraction -/

section NewDate

variable {g bound : ℚ} {n : Int}

theorem newDate_of_nonneg (h : 0 ≤ g) : newDate g = ⌊g⌋ := if_pos h

theorem newDate_of_neg (h : g < 0) : newDate g = ⌈g⌉ := if_neg (not_le.mpr h)

@[simp] theorem newDate_intCast : newDate (n : ℚ) = n := by
  unfold newDate
  split
  · exact Int.floor_intCast n
  · exact Int.ceil_intCast n

theorem le_newDate (h : (n : ℚ) ≤ g) : n ≤ newDate g := by
  unfold newDate
  split
  · exact Int.le_floor.mpr h
  · exact_mod_cast le_trans h (Int.le_ceil g)

theorem newDate_le (h : g ≤ n) : newDate g ≤ n := by
  unfold newDate
  split
  · exact_mod_cast le_trans (Int.floor_le g) h
  · exact Int.ceil_le.mpr h

theorem lt_newDate_iff (h : (n : ℚ) < g) : n < newDate g ↔ (0 ≤ g → (n : ℚ) + 1 ≤ g) := by
  by_cases hg : 0 ≤ g
  · rw [newDate_of_nonneg hg, ← Int.add_one_le_iff, Int.le_floor]
    push_cast
    exact ⟨fun hle _ => hle, fun hle => hle hg⟩
  · rw [newDate_of_neg (not_le.mp hg)]
    exact iff_of_true (Int.lt_ceil.mpr h) fun h0 => absurd h0 hg

theorem newDate_lt_iff (h : g < n) : newDate g < n ↔ (g < 0 → g ≤ n - 1) := by
  by_cases hg : 0 ≤ g
  · rw [newDate_of_nonneg hg]
    exact iff_of_true (Int.floor_lt.mpr h) fun h0 => absurd hg (not_le.mpr h0)
  · rw [newDate_of_neg (not_le.mp hg), ← Int.le_sub_one_iff, Int.ceil_le]
    push_cast
    exact ⟨fun hle _ => hle, fun hle => hle (not_le.mp hg)⟩

theorem newDate_le_iff (h : g ≤ bound) : (newDate g : ℚ) ≤ bound ↔ (g < 0 → g ≤ ⌊bound⌋) := by
  by_cases hg : 0 ≤ g
  · rw [newDate_of_nonneg hg]
    exact iff_of_true (le_trans (Int.floor_le g) h) fun h0 => absurd hg (not_le.mpr h0)
  · rw [newDate_of_neg (not_le.mp hg), ← Int.le_floor, Int.ceil_le]
    exact ⟨fun hle _ => hle, fun hle => hle (not_le.mp hg)⟩

end NewDate

/-! ## The loop -/

theorem IntervalMs.pos (intervalMs : IntervalMs) : 0 < intervalMs.ms := by
  have := intervalMs.second_le
  linarith

theorem nextIntervalFrom_spec (intervalMs : IntervalMs) (now : Int) (candidateMs : ℚ) :
    now < nextIntervalFrom intervalMs now candidateMs ∧
      (nextIntervalFrom intervalMs now candidateMs = candidateMs ∨
        nextIntervalFrom intervalMs now candidateMs ≤ now + intervalMs.ms) ∧
      ∃ n : ℕ, nextIntervalFrom intervalMs now candidateMs = candidateMs + n * intervalMs.ms := by
  fun_induction nextIntervalFrom intervalMs now candidateMs with
  | case1 candidateMs hle ih =>
    have hpoints := ih.2.2
    refine ⟨ih.1, Or.inr ?_, ?_⟩
    · cases ih.2.1 with
      | inl heq => rw [heq]; linarith
      | inr hwithin => exact hwithin
    · obtain ⟨n, hn⟩ := hpoints
      exact ⟨n + 1, by rw [hn]; push_cast; ring⟩
  | case2 candidateMs hgt =>
    exact ⟨not_le.mp hgt, Or.inl rfl, 0, by simp⟩

/-- The loop stops at the first point of the grid through the last run. -/
theorem nextIntervalFrom_eq {intervalMs : IntervalMs} {now last : Int} (h : last ≤ now) :
    nextIntervalFrom intervalMs now (last + intervalMs.ms) = gridPoint intervalMs.ms (last : ℚ) now := by
  have hspec := nextIntervalFrom_spec intervalMs now (last + intervalMs.ms)
  obtain ⟨n, hn⟩ := hspec.2.2
  have hpoint : nextIntervalFrom intervalMs now (last + intervalMs.ms) =
      last + ((n + 1 : Int) : ℚ) * intervalMs.ms := by
    rw [hn]
    push_cast
    ring
  rw [hpoint]
  apply eq_gridPoint intervalMs.pos
  · rw [← hpoint]
    exact hspec.1
  · rw [← hpoint]
    cases hspec.2.1 with
    | inl heq =>
      have : (last : ℚ) ≤ now := by exact_mod_cast h
      rw [heq]
      linarith
    | inr hwithin => exact hwithin

/-! ## A time that comes in time -/

/-- The run at `next` lies in the window and does not skip the occurrence that is open `now`. -/
structure InTime (w : Window) (step : ℚ) (now next : Int) : Prop where
  after : now < next
  inside : w.Open next
  soon : ∀ k, now ∈ w.occurrence k → now + step < w.stop k → next ≤ now + step

/-- A point `g` of the grid stays after `now`, and within a step of it, without its fraction: from 1970 on
the fraction brings it back, before 1970 forward. -/
structure Kept (step : ℚ) (now start stop : Int) (g : ℚ) : Prop where
  forward : 0 ≤ g → now + 1 ≤ g
  back : g < 0 → start ≤ now → now + step < stop → g ≤ now + ⌊step⌋

/-- The next time comes in time: yesterday's occurrence ends within a step, and the point of the grid that
decides keeps its place without its fraction. -/
structure Reaches (w : Window) (step : ℚ) (now : Int) (lastScheduledAt : Option Int) (today current : Int) :
    Prop where
  yesterday : (w.stop (today - 1) : ℚ) ≤ now + step
  lastGrid : ∀ last, lastScheduledAt = some last → w.start current < gridPoint step (last : ℚ) now →
    gridPoint step (last : ℚ) now < w.stop current →
      Kept step now (w.start current) (w.stop current) (gridPoint step (last : ℚ) now) ∧
        (gridPoint step (last : ℚ) now < 0 →
          gridPoint step (last : ℚ) now ≤ w.stop current - 1 ∨ w.length = w.period)
  startGrid : (∀ last, lastScheduledAt = some last → (w.stop current : ℚ) ≤ gridPoint step (last : ℚ) now) →
    w.start current ≤ now →
      Kept step now (w.start current) (w.stop current) (gridPoint step (w.start current : ℚ) now)

section Cases

variable {zone : Zone} {startTime endTime : TimeOfDay} {w : Window} {step g : ℚ} {now k : Int}

/-- What is known of the days around `now`. -/
structure Around (w : Window) (now today current : Int) : Prop where
  before : w.start (today - 1) < now
  next : now < w.start (today + 1)
  current : current = if now < w.stop today then today else today + 1

theorem around_currentDay : Around (dailyWindow zone startTime endTime) now (zone.day now)
    (currentDay zone (dailyWindow zone startTime endTime) now) where
  before := yesterday_lt
  next := lt_tomorrow
  current := rfl

variable {today current : Int}

/-- An occurrence that holds `now` is today's or yesterday's. -/
theorem Around.eq_of_mem (h : Around w now today current) (hk : now ∈ w.occurrence k) :
    (k = today ∧ w.start today ≤ now) ∨ (k = today - 1 ∧ now < w.start today) := by
  by_cases hstart : w.start today ≤ now
  · exact Or.inl ⟨w.eq_of_mem hk hstart h.next, hstart⟩
  · refine Or.inr ⟨w.eq_of_mem hk h.before.le ?_, not_le.mp hstart⟩
    rw [sub_add_cancel]
    exact not_le.mp hstart

theorem Around.lt_stop (h : Around w now today current) : now < w.stop current := by
  rw [h.current]
  split
  · assumption
  · exact lt_trans h.next w.start_lt_stop

theorem Around.start_le (h : Around w now today current) : w.stop (today - 1) ≤ w.start current := by
  have hle := w.stop_le_start (k := today - 1)
  rw [sub_add_cancel] at hle
  refine le_trans hle (w.start_mono ?_)
  rw [h.current]
  split <;> omega

/-- Inside the current window it is today's. -/
theorem Around.eq_today (h : Around w now today current) (hstart : w.start current ≤ now) : current = today := by
  have hnext := h.next
  have hcurrent := h.current
  split at hcurrent
  · exact hcurrent
  · rw [hcurrent] at hstart
    omega

/-- An occurrence that is open and not the current one is yesterday's. -/
theorem Around.eq_yesterday (h : Around w now today current) (hk : now ∈ w.occurrence k)
    (hstart : now < w.start current) : k = today - 1 := by
  have hcurrent := h.current
  cases h.eq_of_mem hk with
  | inr hyesterday => exact hyesterday.1
  | inl htoday =>
    have hstop := hk.2
    rw [htoday.1] at hstop
    rw [if_pos hstop] at hcurrent
    rw [hcurrent] at hstart
    exact absurd htoday.2 (not_le.mpr hstart)

/-! ### The three candidates -/

theorem Around.yesterday_le (h : Around w now today current) (hstart : (w.start current : ℚ) ≤ now + step) :
    (w.stop (today - 1) : ℚ) ≤ now + step :=
  le_trans (by exact_mod_cast h.start_le) hstart

/-- The start of the window decides. -/
theorem inTime_start (h : Around w now today current) (hstep : 0 < step) (hstart : now < w.start current) :
    InTime w step now (w.start current) ↔ (w.stop (today - 1) : ℚ) ≤ now + step := by
  constructor
  · intro hin
    by_contra hroom
    have hroom' : (now : ℚ) + step < w.stop (today - 1) := not_le.mp hroom
    have hopen : now < w.stop (today - 1) := by
      have : (now : ℚ) < w.stop (today - 1) := by linarith
      exact_mod_cast this
    have hsoon := hin.soon (today - 1) ⟨h.before.le, hopen⟩ hroom'
    have hle : (w.stop (today - 1) : ℚ) ≤ w.start current := by exact_mod_cast h.start_le
    linarith
  · intro hle
    refine ⟨hstart, ⟨current, le_refl _, w.start_lt_stop⟩, fun k hk hroom => ?_⟩
    rw [h.eq_yesterday hk hstart] at hroom
    linarith

/-- Without its fraction the point does not leave the window, unless it is brought to the very end. -/
theorem open_newDate_iff (hstart : w.start current < g) (hstop : g < w.stop current) :
    w.Open (newDate g) ↔ (g < 0 → g ≤ w.stop current - 1 ∨ w.length = w.period) := by
  by_cases hlt : newDate g < w.stop current
  · have hopen : w.Open (newDate g) := ⟨current, le_newDate hstart.le, hlt⟩
    exact iff_of_true hopen fun hneg => Or.inl ((newDate_lt_iff hstop).mp hlt hneg)
  · have heq : newDate g = w.stop current := le_antisymm (newDate_le hstop.le) (not_lt.mp hlt)
    have hearly : ¬(g < 0 → g ≤ w.stop current - 1) := fun hle => hlt ((newDate_lt_iff hstop).mpr hle)
    rw [heq, w.open_stop_iff]
    constructor
    · exact fun hfull _ => Or.inr hfull
    · intro hor
      by_contra hfull
      exact hearly fun hneg => (hor hneg).resolve_right hfull

/-- A point within a step reaches the occurrence that is open. -/
theorem soon_newDate_iff (h : Around w now today current) (hyesterday : (w.stop (today - 1) : ℚ) ≤ now + step)
    (hg : g ≤ now + step) :
    (∀ k, now ∈ w.occurrence k → now + step < w.stop k → (newDate g : ℚ) ≤ now + step) ↔
      (g < 0 → w.start current ≤ now → now + step < w.stop current → g ≤ now + ⌊step⌋) := by
  have hfloor : (⌊(now : ℚ) + step⌋ : ℚ) = now + ⌊step⌋ := by
    rw [Int.floor_intCast_add]
    push_cast
    rfl
  rw [← hfloor]
  constructor
  · intro hsoon hneg hstart hroom
    exact (newDate_le_iff hg).mp (hsoon current ⟨hstart, h.lt_stop⟩ hroom) hneg
  · intro hback k hk hroom
    rw [newDate_le_iff hg]
    intro hneg
    by_cases hstart : w.start current ≤ now
    · have hcurrent := h.eq_today hstart
      cases h.eq_of_mem hk with
      | inl htoday =>
        rw [htoday.1, ← hcurrent] at hroom
        exact hback hneg hstart hroom
      | inr hbefore =>
        rw [hbefore.1] at hroom
        linarith
    · rw [h.eq_yesterday hk (not_le.mp hstart)] at hroom
      linarith

/-- The grid of the last run decides. -/
theorem inTime_lastGrid (h : Around w now today current) (hafter : now < g) (hg : g ≤ now + step)
    (hstart : w.start current < g) (hstop : g < w.stop current) :
    InTime w step now (newDate g) ↔ Kept step now (w.start current) (w.stop current) g ∧
      (g < 0 → g ≤ w.stop current - 1 ∨ w.length = w.period) := by
  have hsoon := soon_newDate_iff h (h.yesterday_le (le_trans hstart.le hg)) hg
  have hopen := open_newDate_iff hstart hstop
  have hforward := lt_newDate_iff hafter
  constructor
  · intro hin
    exact ⟨⟨hforward.mp hin.after, hsoon.mp hin.soon⟩, hopen.mp hin.inside⟩
  · intro hkept
    exact ⟨hforward.mpr hkept.1.forward, hopen.mpr hkept.2, hsoon.mpr hkept.1.back⟩

/-- The grid of the window's start decides; where its point is not before the end, the next day's start does. -/
theorem inTime_startGrid (h : Around w now today current) (hafter : now < g) (hg : g ≤ now + step)
    (hstep : 0 < step) (hstart : w.start current ≤ now) :
    InTime w step now (if newDate g < w.stop current then newDate g else w.start (current + 1)) ↔
      Kept step now (w.start current) (w.stop current) g := by
  have hyesterday : (w.stop (today - 1) : ℚ) ≤ now + step := by
    apply h.yesterday_le
    have : (w.start current : ℚ) ≤ now := by exact_mod_cast hstart
    linarith only [this, hstep]
  have hsoon := soon_newDate_iff h hyesterday hg
  have hforward := lt_newDate_iff hafter
  by_cases hlt : newDate g < w.stop current
  · rw [if_pos hlt]
    constructor
    · intro hin
      exact ⟨hforward.mp hin.after, hsoon.mp hin.soon⟩
    · intro hkept
      have hlater := hforward.mpr hkept.forward
      exact ⟨hlater, ⟨current, by omega, hlt⟩, hsoon.mpr hkept.back⟩
  · rw [if_neg hlt]
    have hnext : w.stop current ≤ w.start (current + 1) := w.stop_le_start
    have hnow := h.lt_stop
    constructor
    · intro hin
      refine ⟨hforward.mp (by omega), fun _ _ hroom => ?_⟩
      have hle := hin.soon current ⟨hstart, hnow⟩ hroom
      have hnext' : (w.stop current : ℚ) ≤ w.start (current + 1) := by exact_mod_cast hnext
      linarith
    · intro hkept
      refine ⟨by omega, ⟨current + 1, le_refl _, w.start_lt_stop⟩, fun k hk hroom => ?_⟩
      -- the point would come within a step and before the end, and so would the date
      have hle := hsoon.mpr hkept.back k hk hroom
      have hk' : k = current := by
        rw [h.eq_today hstart]
        cases h.eq_of_mem hk with
        | inl htoday => exact htoday.1
        | inr hbefore =>
          rw [hbefore.1] at hroom
          linarith
      rw [hk'] at hroom
      have hstop : (w.stop current : ℚ) ≤ newDate g := by exact_mod_cast not_lt.mp hlt
      linarith

end Cases

/-! ## The next time -/

section Next

variable {zone : Zone} {startTime endTime : TimeOfDay} {intervalMs : IntervalMs} {now : Int}

theorem nextInWindow_eq (w : Window) (hw : w = dailyWindow zone startTime endTime) (current : Int) :
    nextInWindow zone intervalMs now startTime endTime ⟨w.start current, w.stop current⟩ =
      if now < w.start current then w.start current
      else if newDate (gridPoint intervalMs.ms (w.start current : ℚ) now) < w.stop current then
        newDate (gridPoint intervalMs.ms (w.start current : ℚ) now)
      else w.start (current + 1) := by
  have hnext : (windowBoundsFor zone (addDays zone (w.start current) 1) startTime endTime).start =
      w.start (current + 1) := by
    rw [windowBoundsFor_eq, addDays_eq, one_mul, day_add, hw, day_start]
  unfold nextInWindow
  simp only [hnext]
  unfold gridPoint
  push_cast
  rfl

theorem inTime_nextInWindow_iff (lastScheduledAt : Option Int)
    (hlast : ∀ last, lastScheduledAt = some last → ((dailyWindow zone startTime endTime).stop
      (currentDay zone (dailyWindow zone startTime endTime) now) : ℚ) ≤ gridPoint intervalMs.ms (last : ℚ) now) :
    InTime (dailyWindow zone startTime endTime) intervalMs.ms now
        (nextInWindow zone intervalMs now startTime endTime
          ⟨(dailyWindow zone startTime endTime).start (currentDay zone (dailyWindow zone startTime endTime) now),
            (dailyWindow zone startTime endTime).stop (currentDay zone (dailyWindow zone startTime endTime) now)⟩) ↔
      Reaches (dailyWindow zone startTime endTime) intervalMs.ms now lastScheduledAt (zone.day now)
        (currentDay zone (dailyWindow zone startTime endTime) now) := by
  have h : Around (dailyWindow zone startTime endTime) now (zone.day now)
      (currentDay zone (dailyWindow zone startTime endTime) now) := around_currentDay
  generalize hw : dailyWindow zone startTime endTime = w at *
  generalize hcurrent : currentDay zone w now = current at *
  have hstep := intervalMs.pos
  rw [nextInWindow_eq w hw.symm]
  have hlastGrid : ∀ last, lastScheduledAt = some last →
      ¬gridPoint intervalMs.ms (last : ℚ) now < w.stop current := fun last heq => not_lt.mpr (hlast last heq)
  by_cases hstart : now < w.start current
  · rw [if_pos hstart, inTime_start h hstep hstart]
    constructor
    · intro hle
      exact ⟨hle, fun last heq _ hlt => absurd hlt (hlastGrid last heq), fun _ hle => absurd hstart (not_lt.mpr hle)⟩
    · exact fun hreaches => hreaches.yesterday
  · have hle := not_lt.mp hstart
    rw [if_neg hstart, inTime_startGrid h (lt_gridPoint hstep) (gridPoint_le hstep) hstep hle]
    constructor
    · intro hkept
      refine ⟨h.yesterday_le ?_, fun last heq _ hlt => absurd hlt (hlastGrid last heq), fun _ _ => hkept⟩
      have : (w.start current : ℚ) ≤ now := by exact_mod_cast hle
      linarith
    · exact fun hreaches => hreaches.startGrid hlast hle

theorem inTime_nextWindowedInterval_iff (lastScheduledAt : Option Int)
    (hlast : ∀ last, lastScheduledAt = some last → last ≤ now) :
    InTime (dailyWindow zone startTime endTime) intervalMs.ms now
        (nextWindowedInterval zone intervalMs now startTime endTime lastScheduledAt) ↔
      Reaches (dailyWindow zone startTime endTime) intervalMs.ms now lastScheduledAt (zone.day now)
        (currentDay zone (dailyWindow zone startTime endTime) now) := by
  unfold nextWindowedInterval
  rw [activeOrNextWindow_eq]
  cases lastScheduledAt with
  | none => exact inTime_nextInWindow_iff none fun last heq => by cases heq
  | some last =>
    dsimp only
    rw [nextIntervalFrom_eq (hlast last rfl)]
    by_cases hstop : gridPoint intervalMs.ms (last : ℚ) now <
        (dailyWindow zone startTime endTime).stop (currentDay zone (dailyWindow zone startTime endTime) now)
    · rw [if_pos hstop]
      have h : Around (dailyWindow zone startTime endTime) now (zone.day now)
          (currentDay zone (dailyWindow zone startTime endTime) now) := around_currentDay
      generalize dailyWindow zone startTime endTime = w at *
      generalize currentDay zone w now = current at *
      have hafter : (now : ℚ) < gridPoint intervalMs.ms (last : ℚ) now := lt_gridPoint intervalMs.pos
      have hwithin : gridPoint intervalMs.ms (last : ℚ) now ≤ now + intervalMs.ms := gridPoint_le intervalMs.pos
      by_cases hstart : (w.start current : ℚ) < gridPoint intervalMs.ms (last : ℚ) now
      · rw [max_eq_left hstart.le, inTime_lastGrid h hafter hwithin hstart hstop]
        constructor
        · intro hkept
          refine ⟨h.yesterday_le (le_trans hstart.le hwithin), ?_, ?_⟩
          · intro last' heq _ _
            cases heq
            exact hkept
          · exact fun hlate => absurd hstop (not_lt.mpr (hlate last rfl))
        · exact fun hreaches => hreaches.lastGrid last rfl hstart hstop
      · have hle := not_lt.mp hstart
        have hnow : now < w.start current := by
          have : (now : ℚ) < w.start current := lt_of_lt_of_le hafter hle
          exact_mod_cast this
        rw [max_eq_right hle, newDate_intCast, inTime_start h intervalMs.pos hnow]
        constructor
        · intro hyesterday
          refine ⟨hyesterday, ?_, fun _ hle => absurd hnow (not_lt.mpr hle)⟩
          intro last' heq hlt _
          cases heq
          exact absurd hlt hstart
        · exact fun hreaches => hreaches.yesterday
    · rw [if_neg hstop]
      apply inTime_nextInWindow_iff
      intro last' heq
      cases heq
      exact not_lt.mp hstop

/-- From 22:00 to 06:00, every hour. -/
def nightly : NotificationScheduleDefinition where
  type := .interval
  intervalSeconds := some 3600
  windowStartTime := some (js "22:00")
  windowEndTime := some (js "06:00")

def tenInTheEvening : TimeOfDay := ⟨22, 0, 0, by decide, by decide, by decide⟩

def sixInTheMorning : TimeOfDay := ⟨6, 0, 0, by decide, by decide, by decide⟩

end Next

end RabiRoute.Scheduling
