/-!
# Dates and times of day

A moment is a number of seconds since the start of 1970.  Years are counted
from March, so that a leap day is the last of its year, and in cycles of 400
years, after which the calendar repeats.
-/

namespace LockBench

/-- A day of the calendar. -/
structure Date where
  /-- The year. -/
  year : Nat
  /-- The month, from one. -/
  month : Nat
  /-- The day of the month, from one. -/
  day : Nat
  deriving DecidableEq, Repr

namespace Date

/-- The number of days in 400 years. -/
def daysInCycle : Nat := 146097

/-- The number of days from the first of March of the year 0 to the start of
1970. -/
def daysBefore1970 : Nat := 719468

/-- The day that follows the start of 1970 by some days. -/
def ofDays (days : Nat) : Date :=
  let sinceMarch := days + daysBefore1970
  let dayOfCycle := sinceMarch % daysInCycle
  let yearOfCycle :=
    (dayOfCycle - dayOfCycle / 1460 + dayOfCycle / 36524 -
      dayOfCycle / 146096) / 365
  let dayOfYear :=
    dayOfCycle - (365 * yearOfCycle + yearOfCycle / 4 - yearOfCycle / 100)
  let monthFromMarch := (5 * dayOfYear + 2) / 153
  let year := sinceMarch / daysInCycle * 400 + yearOfCycle
  { year := if monthFromMarch < 10 then year else year + 1
    month := if monthFromMarch < 10 then monthFromMarch + 3
      else monthFromMarch - 9
    day := dayOfYear - (153 * monthFromMarch + 2) / 5 + 1 }

example : ofDays 0 = ⟨1970, 1, 1⟩ := by decide

example : ofDays 11016 = ⟨2000, 2, 29⟩ := by decide

end Date

/-- A number in at least some digits. -/
def digits
    (width : Nat)
    (value : Nat) : String :=
  let text := toString value
  String.ofList (List.replicate (width - text.length) '0') ++ text

/-- The date and the time of day of a moment. -/
def momentText (seconds : Nat) : String :=
  let date := Date.ofDays (seconds / 86400)
  let second := seconds % 86400
  "-".intercalate [digits 4 date.year, digits 2 date.month,
      digits 2 date.day] ++ " " ++
    ":".intercalate [digits 2 (second / 3600), digits 2 (second / 60 % 60),
      digits 2 (second % 60)]

end LockBench
