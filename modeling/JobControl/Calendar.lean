/-!
# Moments and dates

A moment is a number of seconds since the beginning of 1970, in universal time.  It is shown as a
date: day of the week, month, day with a space before a single digit, time of day, year.
-/

namespace JobControl

/-- Seconds since the beginning of 1970. -/
structure Moment where
  seconds : Nat
  deriving DecidableEq, Repr

namespace Moment

def isLeapYear (year : Nat) : Bool :=
  year % 4 = 0 && (year % 100 ≠ 0 || year % 400 = 0)

def daysOfYear (year : Nat) : Nat :=
  if isLeapYear year then 366 else 365

/-- The year in which a day lies, counted from the first day of `year`, and the day in it.  At
most `left` years are passed. -/
def yearAndDay (left year day : Nat) : Nat × Nat :=
  match left with
  | 0 => (year, day)
  | left + 1 =>
      if day < daysOfYear year then (year, day)
      else yearAndDay left (year + 1) (day - daysOfYear year)

def months (year : Nat) : List (String × Nat) :=
  [("Jan", 31), ("Feb", if isLeapYear year then 29 else 28), ("Mar", 31), ("Apr", 30),
   ("May", 31), ("Jun", 30), ("Jul", 31), ("Aug", 31), ("Sep", 30), ("Oct", 31), ("Nov", 30),
   ("Dec", 31)]

/-- The month in which a day of a year lies, and the day in it, both ends counted from zero. -/
def monthAndDay (day : Nat) : List (String × Nat) → String × Nat
  | [] => ("", day)
  | (name, length) :: rest =>
      if day < length then (name, day) else monthAndDay (day - length) rest

/-- The days of the week, from the one on which 1970 began. -/
def weekdays : List String :=
  ["Thu", "Fri", "Sat", "Sun", "Mon", "Tue", "Wed"]

def twoDigits (n : Nat) : String :=
  if n < 10 then s!"0{n}" else toString n

def describe (moment : Moment) : String :=
  let day := moment.seconds / 86400
  let time := moment.seconds % 86400
  let (year, dayOfYear) := yearAndDay day 1970 day
  let (month, dayOfMonth) := monthAndDay dayOfYear (months year)
  let weekday := weekdays.getD (day % 7) ""
  let date := dayOfMonth + 1
  let space := if date < 10 then " " else ""
  s!"{weekday} {month} {space}{date} {twoDigits (time / 3600)}:" ++
    s!"{twoDigits (time / 60 % 60)}:{twoDigits (time % 60)} {year}"

end Moment

end JobControl
