import Mathlib.Tactic.Linarith

/-! The weeks and months of `utils/xtime/time.go`, in a location with a fixed offset. Instants are
counted in nanoseconds, and days from the first of January of the year 1, a Monday. -/
namespace DueServer.Calendar

def dayNanos : ℤ := 86400 * 10 ^ 9

section Weeks

structure Time where
  day : ℤ
  nanos : ℤ
  nanos_ok : 0 ≤ nanos ∧ nanos < dayNanos

namespace Time

variable (now : Time)

def instant : ℤ := now.day * dayNanos + now.nanos

/-- `time.Sunday` is `0`. -/
def weekday : ℤ := (now.day + 1) % 7

/-- `AddDate(0, 0, days)`. -/
def addDays (days : ℤ) : Time := { now with day := now.day + days }

/-- The `time.Date` of the day, at its start or with the last nanosecond of it. -/
def head : Time := ⟨now.day, 0, by decide⟩

def tail : Time := ⟨now.day, dayNanos - 1, by decide⟩

def weekHead (offset : ℤ) : Time :=
  let offsetDays := 1 - now.weekday
  let offsetDays := if offsetDays = 1 then -6 else offsetDays
  (now.addDays (offsetDays + offset * 7)).head

def weekTail (offset : ℤ) : Time :=
  let offsetDays := 0 - now.weekday + 7
  (now.addDays (offsetDays + offset * 7)).tail

/-- The weeks start on Mondays, last seven days each, follow each other, and the first is the
current. -/
structure Weeks (k : ℤ) : Prop where
  monday : (now.weekHead k).weekday = 1 ∧ (now.weekHead k).nanos = 0
  current : (now.weekHead 0).instant ≤ now.instant ∧ now.instant ≤ (now.weekTail 0).instant
  length : (now.weekTail k).instant = (now.weekHead k).instant + 7 * dayNanos - 1
  next : (now.weekHead (k + 1)).instant = (now.weekTail k).instant + 1

end Time

end Weeks

section Months

/-- `IsLeapYear`; whether a remainder is zero does not depend on its sign. -/
def isLeapYear (year : ℤ) : Bool := (year % 4 = 0 ∧ year % 100 ≠ 0) ∨ year % 400 = 0

/-- The days before a month, with the months counted from January of the year 0. -/
def monthStart (i : ℤ) : ℤ :=
  let year := i / 12
  let month := i % 12 + 1
  365 * (year - 1) + (year - 1) / 4 - (year - 1) / 100 + (year - 1) / 400 +
    (367 * month - 362) / 12 +
    if month ≤ 2 then 0 else if isLeapYear year then -1 else -2

/-- `time.Date`, which carries months and days that are out of range. -/
def date (year month day nanos : ℤ) : ℤ :=
  (monthStart (12 * year + (month - 1)) + (day - 1)) * dayNanos + nanos

/-- A time with its year and month. -/
structure Now extends Time where
  year : ℤ
  month : ℤ
  month_ok : 1 ≤ month ∧ month ≤ 12
  day_ok : monthStart (12 * year + (month - 1)) ≤ day ∧
    day < monthStart (12 * year + (month - 1) + 1)

variable (now : Now) (offset : ℤ)

def Now.index : ℤ := 12 * now.year + (now.month - 1)

/-- `Day`. -/
def Now.monthDay : ℤ := now.day - monthStart now.index + 1

/-- The year and the month that the three functions compute from the offset. -/
def shifted : ℤ × ℤ :=
  let year := now.year + offset.tdiv 12
  let month := now.month + offset.tmod 12
  if month ≤ 0 then (year - 1, month + 12) else (year, month)

def month : ℤ :=
  if offset = 0 then now.instant
  else
    let (year, month) := shifted now offset
    let day :=
      if month ∈ [4, 6, 9, 11] then min now.monthDay 30
      else if month = 2 then min now.monthDay (if isLeapYear year then 29 else 28)
      else now.monthDay
    date year month day now.nanos

def monthHead : ℤ :=
  if offset = 0 then date now.year now.month 1 0
  else
    let (year, month) := shifted now offset
    date year month 1 0

/-- The day of `MonthTail`. -/
def lastDay (year month : ℤ) : ℤ :=
  if month ∈ [1, 3, 5, 7, 8, 10, 12] then 31
  else if month ∈ [4, 6, 9, 11] then 30
  else if month = 2 then if isLeapYear year then 29 else 28
  else 0

def monthTail : ℤ :=
  let (year, month) := shifted now offset
  date year month (lastDay year month) (dayNanos - 1)

/-- The three functions give the head and the tail of the month that is `k` months away, and its day
that corresponds to the current one. -/
structure Months (k : ℤ) : Prop where
  head : monthHead now k = monthStart (now.index + k) * dayNanos
  tail : monthTail now k = monthHead now (k + 1) - 1
  same : month now k = (monthStart (now.index + k) +
    (min now.monthDay (monthStart (now.index + k + 1) - monthStart (now.index + k)) - 1)) *
      dayNanos + now.nanos

theorem lastDay_bounds (year i : ℤ) : 0 < lastDay year (i % 12 + 1) ∧
    lastDay year (i % 12 + 1) ≤ 31 := by
  simp only [lastDay, List.mem_cons, List.not_mem_nil, or_false]
  split_ifs <;> omega

theorem monthStart_succ (i : ℤ) :
    monthStart (i + 1) = monthStart i + lastDay (i / 12) (i % 12 + 1) := by
  simp only [monthStart, lastDay, isLeapYear, List.mem_cons, List.not_mem_nil, or_false,
    decide_eq_true_eq]
  have hmon : i % 12 = 11 ∨ (i + 1) / 12 = i / 12 ∧ (i + 1) % 12 = i % 12 + 1 := by omega
  rcases hmon with hlast | ⟨hyear, hmon⟩
  · have hnext : (i + 1) / 12 = i / 12 + 1 ∧ (i + 1) % 12 = 0 := by omega
    rw [hnext.1, hnext.2, hlast]
    generalize i / 12 = year
    norm_num
    split_ifs <;> omega
  · rw [hyear, hmon]
    generalize i / 12 = year
    generalize i % 12 = m at *
    split_ifs <;> omega

variable {now} in
theorem shifted_eq {k year month : ℤ} (h : shifted now k = (year, month)) :
    12 * year + (month - 1) = now.index + k ∧ 1 ≤ month ∧
      (month ≤ 12 ↔ now.month + k.tmod 12 ≤ 12) := by
  have hsp := Int.mul_tdiv_add_tmod k 12
  have hlow := Int.lt_tmod_of_pos k (by decide : (0 : ℤ) < 12)
  have hmon := now.month_ok
  simp only [shifted] at h
  split_ifs at h with hle <;> cases h <;> rw [Now.index] <;> omega

theorem monthHead_eq (k : ℤ) : monthHead now k = monthStart (now.index + k) * dayNanos := by
  unfold monthHead
  split_ifs with hzero
  · simp [hzero, date, Now.index]
  rcases hshi : shifted now k with ⟨year, month⟩
  simp [date, (shifted_eq hshi).1]

def newYearsEve : Now := ⟨⟨738884, 0, by decide⟩, 2023, 12, by decide, by decide⟩

end Months

end DueServer.Calendar
