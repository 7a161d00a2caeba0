import Mathlib.Data.Rat.Floor
import RabiRoute.Periodic.Times
import RabiRoute.Shared.JsString

/-!
# Heartbeat schedules

`heartbeatSchedules.ts`.  A `Date` is its time value, a whole number of milliseconds; the local clock is a
fixed number of milliseconds ahead of UTC, so that a local day is known by its number.  An interval need
not be a whole number of milliseconds.
-/

namespace RabiRoute.Scheduling

inductive NotificationScheduleType where
  | interval
  | daily_time
  | once_at

/-- `intervalSeconds` is missing when it is no finite number. -/
structure NotificationScheduleDefinition where
  enabled : Option Bool := none
  type : NotificationScheduleType
  intervalSeconds : Option ℚ := none
  windowStartTime : Option JsString := none
  windowEndTime : Option JsString := none
  timeOfDay : Option JsString := none
  onceAt : Option JsString := none

structure TimeOfDay where
  hours : Nat
  minutes : Nat
  seconds : Nat
  hours_le : hours ≤ 23
  minutes_le : minutes ≤ 59
  seconds_le : seconds ≤ 59

def secondMs : Int := 1000

def dayMs : Int := 24 * 60 * 60 * secondMs

/-! ## Texts -/

def digit (u : UInt16) : Option Nat := if 48 ≤ u ∧ u ≤ 57 then some (u.toNat - 48) else none

/-- `\d{n}` at the head of the text, and the rest. -/
def takeDigits : Nat → Nat → JsString → Option (Nat × JsString)
  | 0, read, text => some (read, text)
  | _ + 1, _, [] => none
  | n + 1, read, u :: text => do
      let d ← digit u
      takeDigits n (10 * read + d) text

def takeUnit (units : JsString) : JsString → Option JsString
  | [] => none
  | u :: text => if u ∈ units then some text else none

/-- `\d{1,2}:` takes the second digit when there is one. -/
def takeHours (text : JsString) : Option (Nat × JsString) :=
  (do
    let (hours, rest) ← takeDigits 2 0 text
    return (hours, ← takeUnit (js ":") rest)) <|> do
  let (hours, rest) ← takeDigits 1 0 text
  return (hours, ← takeUnit (js ":") rest)

/-- `(?::(\d{2}))?$` -/
def takeSeconds : JsString → Option Nat
  | [] => some 0
  | text => do
      let rest ← takeUnit (js ":") text
      let (seconds, rest) ← takeDigits 2 0 rest
      if rest.isEmpty then some seconds else none

def parseTimeOfDay (value : Option JsString) : Option TimeOfDay := do
  let (hours, rest) ← takeHours (value.getD []).trim
  let (minutes, rest) ← takeDigits 2 0 rest
  let seconds ← takeSeconds rest
  if h : hours ≤ 23 ∧ minutes ≤ 59 ∧ seconds ≤ 59 then
    some { hours, minutes, seconds, hours_le := h.1, minutes_le := h.2.1, seconds_le := h.2.2 }
  else none

/-! ## The local clock -/

/-- What the local clock shows beyond UTC. -/
structure Zone where
  offset : Int

namespace Zone

variable (zone : Zone)

/-- `getFullYear`, `getMonth` and `getDate` as the number of the local day. -/
def day (date : Int) : Int := (date + zone.offset) / dayMs

/-- `getHours` to `getMilliseconds`. -/
def inDay (date : Int) : Int := (date + zone.offset) % dayMs

/-- `new Date(year, month, date, …)` -/
def dateOf (day inDay : Int) : Int := day * dayMs + inDay - zone.offset

end Zone

def TimeOfDay.ms (time : TimeOfDay) : Int := ((time.hours * 60 + time.minutes) * 60 + time.seconds) * secondMs

def isLeapYear (year : Int) : Bool := year % 4 = 0 && (year % 100 ≠ 0 || year % 400 = 0)

/-- The days before a month of a common year. -/
def daysBefore : List Int := [0, 31, 59, 90, 120, 151, 181, 212, 243, 273, 304, 334]

/-- The number of a local day; a month beyond the year and a date beyond the month run on. -/
def makeDay (year month date : Int) : Int :=
  let full := if 0 ≤ year ∧ year ≤ 99 then 1900 + year else year
  let y := full + month / 12
  let m := (month % 12).toNat
  365 * (y - 1970) + (y - 1969) / 4 - (y - 1901) / 100 + (y - 1601) / 400 + daysBefore.getD m 0 +
    (if 2 ≤ m ∧ isLeapYear y then 1 else 0) + (date - 1)

def atLocalTime (zone : Zone) (day : Int) (time : TimeOfDay) : Int := zone.dateOf (zone.day day) time.ms

def addDays (zone : Zone) (date : Int) (days : Int) : Int := zone.dateOf (zone.day date + days) (zone.inDay date)

/-- `^(\d{4})-(\d{2})-(\d{2})[T ](\d{2}):(\d{2})(?::(\d{2}))?$`; every such date is valid. -/
def parseLocalDateTime (zone : Zone) (value : Option JsString) : Option Int := do
  let trimmed := (value.getD []).trim
  let (year, rest) ← takeDigits 4 0 trimmed
  let rest ← takeUnit (js "-") rest
  let (month, rest) ← takeDigits 2 0 rest
  let rest ← takeUnit (js "-") rest
  let (date, rest) ← takeDigits 2 0 rest
  let rest ← takeUnit (js "T ") rest
  let (hours, rest) ← takeDigits 2 0 rest
  let rest ← takeUnit (js ":") rest
  let (minutes, rest) ← takeDigits 2 0 rest
  let seconds ← takeSeconds rest
  return zone.dateOf (makeDay year (month - 1) date) (((hours * 60 + minutes) * 60 + seconds) * secondMs)

/-! ## The next time -/

@[simp] theorem addDays_eq (zone : Zone) (date : Int) (days : Int) : addDays zone date days = date + days * dayMs := by
  have h := Int.mul_ediv_add_emod (date + zone.offset) dayMs
  unfold addDays Zone.dateOf Zone.day Zone.inDay
  rw [mul_comm] at h
  rw [add_mul]
  omega

theorem dayMs_pos : 0 < dayMs := by decide

def nextDailyFrom (zone : Zone) (now candidate : Int) : Int :=
  if candidate ≤ now then nextDailyFrom zone now (addDays zone candidate 1) else candidate
termination_by (now + 1 - candidate).toNat
decreasing_by
  have := dayMs_pos
  rw [addDays_eq]
  omega

def nextDailyAt (zone : Zone) (time : TimeOfDay) (now : Int) (lastScheduledAt : Option Int) : Int :=
  nextDailyFrom zone now (atLocalTime zone (lastScheduledAt.elim now fun last ↦ addDays zone last 1) time)

/-- The interval in milliseconds, one second at least. -/
structure IntervalMs where
  ms : ℚ
  second_le : 1000 ≤ ms

def intervalMsOf (intervalSeconds : ℚ) : IntervalMs where
  ms := max 1 intervalSeconds * 1000
  second_le := by
    have := le_max_left 1 intervalSeconds
    linarith

/-- `new Date(ms)` drops the fraction. -/
def newDate (ms : ℚ) : Int := if 0 ≤ ms then ⌊ms⌋ else ⌈ms⌉

/-- `while (candidateMs <= now.getTime()) candidateMs += intervalMs` -/
def nextIntervalFrom (intervalMs : IntervalMs) (now : Int) (candidateMs : ℚ) : ℚ :=
  if candidateMs ≤ now then nextIntervalFrom intervalMs now (candidateMs + intervalMs.ms) else candidateMs
termination_by (⌊now - candidateMs⌋ + 1).toNat
decreasing_by
  have hstep : ⌊now - (candidateMs + intervalMs.ms)⌋ ≤ ⌊now - candidateMs⌋ - 1 := by
    rw [← Int.floor_sub_one]
    apply Int.floor_le_floor
    have := intervalMs.second_le
    linarith
  have hnonneg : 0 ≤ ⌊now - candidateMs⌋ := Int.floor_nonneg.mpr (by linarith)
  omega

structure WindowBounds where
  start : Int
  stop : Int

def windowBoundsFor (zone : Zone) (day : Int) (startTime endTime : TimeOfDay) : WindowBounds :=
  let start := atLocalTime zone day startTime
  let stop := atLocalTime zone day endTime
  { start, stop := if stop ≤ start then addDays zone stop 1 else stop }

def activeOrNextWindow (zone : Zone) (now : Int) (startTime endTime : TimeOfDay) : WindowBounds :=
  let today := windowBoundsFor zone now startTime endTime
  if now < today.stop then today else windowBoundsFor zone (addDays zone now 1) startTime endTime

def nextIntervalWithoutWindow (intervalMs : IntervalMs) (now : Int) : Option Int → Int
  | none => newDate (now + intervalMs.ms)
  | some last => newDate (nextIntervalFrom intervalMs now (last + intervalMs.ms))

/-- The time without a usable `lastScheduledAt`. -/
def nextInWindow (zone : Zone) (intervalMs : IntervalMs) (now : Int) (startTime endTime : TimeOfDay)
    (currentWindow : WindowBounds) : Int :=
  if now < currentWindow.start then currentWindow.start
  else
    let elapsed : ℚ := now - currentWindow.start
    let steps := ⌊elapsed / intervalMs.ms⌋ + 1
    let candidate := newDate (currentWindow.start + steps * intervalMs.ms)
    if candidate < currentWindow.stop then candidate
    else (windowBoundsFor zone (addDays zone currentWindow.start 1) startTime endTime).start

def nextWindowedInterval (zone : Zone) (intervalMs : IntervalMs) (now : Int) (startTime endTime : TimeOfDay)
    (lastScheduledAt : Option Int) : Int :=
  let currentWindow := activeOrNextWindow zone now startTime endTime
  match lastScheduledAt with
  | none => nextInWindow zone intervalMs now startTime endTime currentWindow
  | some last =>
    let candidateMs := nextIntervalFrom intervalMs now (last + intervalMs.ms)
    if candidateMs < currentWindow.stop then newDate (max candidateMs currentWindow.start)
    else nextInWindow zone intervalMs now startTime endTime currentWindow

def nextHeartbeatScheduleTime (zone : Zone) (schedule : NotificationScheduleDefinition) (now : Int)
    (lastScheduledAt : Option Int) : Option Int :=
  if schedule.enabled = some false then none
  else match schedule.type with
  | .daily_time => (parseTimeOfDay schedule.timeOfDay).map (nextDailyAt zone · now lastScheduledAt)
  | .once_at =>
    if lastScheduledAt.isSome then none
    else (parseLocalDateTime zone schedule.onceAt).filter (now < ·)
  | .interval =>
    let intervalSeconds := schedule.intervalSeconds.getD 0
    if intervalSeconds ≤ 0 then none
    else
      let intervalMs := intervalMsOf intervalSeconds
      match parseTimeOfDay schedule.windowStartTime, parseTimeOfDay schedule.windowEndTime with
      | some startTime, some endTime =>
        some (nextWindowedInterval zone intervalMs now startTime endTime lastScheduledAt)
      | _, _ => some (nextIntervalWithoutWindow intervalMs now lastScheduledAt)

end RabiRoute.Scheduling
