/-!
# The civil calendar

Dates of the proleptic Gregorian calendar in the years 1 to 9999, and their day
numbers.  A day number counts from the first of January of the year 1.

Main definitions:

- {lit}`Calendar.Date`: a year, a month and a day.
- {lit}`Calendar.dayNumber`: the day number of a date.
- {lit}`Calendar.ofDayNumber`: the date of a day number.
- {lit}`Calendar.LocalTime`: a date and a time of day with an offset from UTC.
- {lit}`Calendar.startOfDay`: midnight of the UTC day that a time belongs to.
- {lit}`Calendar.LocalTime.startOfDay`: the same for a date and a time of day.
-/

namespace StakeLedger.Calendar

/-- A date. -/
structure Date where
  year : Nat
  month : Nat
  day : Nat
deriving DecidableEq, Repr

/-- Whether a year has a leap day. -/
def isLeap (year : Nat) : Bool :=
  year % 4 = 0 && (year % 100 ≠ 0 || year % 400 = 0)

/-- The lengths of the months of a year. -/
def monthLengths (leap : Bool) : List Nat :=
  [31, if leap then 29 else 28, 31, 30, 31, 30, 31, 31, 30, 31, 30, 31]

/-- How many days a month has; a month out of range has none. -/
def daysInMonth (year month : Nat) : Nat :=
  if month = 0 then 0 else (monthLengths (isLeap year)).getD (month - 1) 0

/-- How many days lie before the first of January of a year. -/
def daysBeforeYear (year : Nat) : Nat :=
  let y := year - 1
  365 * y + y / 4 - y / 100 + y / 400

/-- The day number of a date. -/
def dayNumber (d : Date) : Nat :=
  let before := (monthLengths (isLeap d.year)).take (d.month - 1)
  daysBeforeYear d.year + before.foldl (· + ·) 0 + (d.day - 1)

/-- The month and day of a day of the year, from the months that are left. -/
def monthAndDay : List Nat → Nat → Nat → Nat × Nat
  | [], month, day => (month, day + 1)
  | length :: rest, month, day =>
      if day < length then (month, day + 1) else monthAndDay rest (month + 1) (day - length)

/-- The year and the day of the year of a day number, by cycles of four hundred,
one hundred and four years. -/
def yearAndDay (n : Nat) : Nat × Nat :=
  let cycles400 := n / 146097
  let n := n % 146097
  let cycles100 := min (n / 36524) 3
  let n := n - 36524 * cycles100
  let cycles4 := n / 1461
  let n := n % 1461
  let years := min (n / 365) 3
  (400 * cycles400 + 100 * cycles100 + 4 * cycles4 + years + 1, n - 365 * years)

/-- The date of a day number. -/
def ofDayNumber (n : Nat) : Date :=
  let (year, day) := yearAndDay n
  let (month, day) := monthAndDay (monthLengths (isLeap year)) 1 day
  ⟨year, month, day⟩

/-- How many seconds a day has. -/
def secondsPerDay : Int := 86400

/-- The day number of the first of January 1970. -/
def epochDay : Int := 719162

/-- The Unix time of midnight at the beginning of a day. -/
def midnight (day : Nat) : Int :=
  (day - epochDay) * secondsPerDay

/-- How many days the years 1 to 9999 have. -/
def dayCount : Int := 3652059

/-! ## Times of day -/

/-- How many microseconds a second has. -/
def microsecondsPerSecond : Int := 1000000

/-- How many microseconds a day has. -/
def microsecondsPerDay : Int := secondsPerDay * microsecondsPerSecond

/-- A date and a time of day, with the microseconds by which the clock is ahead of
UTC. -/
structure LocalTime where
  year : Int
  month : Int
  day : Int
  hour : Int
  minute : Int
  second : Int
  microsecond : Int
  offset : Int
deriving DecidableEq, Repr

/-- Why numbers are no time, or a time has no UTC date. -/
inductive Fault where
  | offset (microseconds : Int)
  | year (n : Int)
  | month
  | day
  | hour
  | minute
  | second
  | microsecond
  | dateRange
deriving DecidableEq, Repr

/-- A difference of times as it is shown: days, and what is left of seconds and
microseconds. -/
def durationText (microseconds : Int) : String :=
  let days := microseconds / microsecondsPerDay
  let seconds := microseconds % microsecondsPerDay / microsecondsPerSecond
  let rest := microseconds % microsecondsPerSecond
  let secondsText := if seconds = 0 then "" else s!", seconds={seconds}"
  let restText := if rest = 0 then "" else s!", microseconds={rest}"
  s!"datetime.timedelta(days={days}{secondsText}{restText})"

/-- What is said of a fault. -/
def Fault.message : Fault → String
  | .offset microseconds =>
      "offset must be a timedelta strictly between -timedelta(hours=24) and " ++
        s!"timedelta(hours=24), not {durationText microseconds}."
  | .year n => s!"year {n} is out of range"
  | .month => "month must be in 1..12"
  | .day => "day is out of range for month"
  | .hour => "hour must be in 0..23"
  | .minute => "minute must be in 0..59"
  | .second => "second must be in 0..59"
  | .microsecond => "microsecond must be in 0..999999"
  | .dateRange => "date value out of range"

/-- The first fault of a time, if it has one: the offset is checked before the
date and the date before the time of day. -/
def LocalTime.fault? (t : LocalTime) : Option Fault :=
  if t.offset ≤ -microsecondsPerDay ∨ microsecondsPerDay ≤ t.offset then
    some (.offset t.offset)
  else if t.year < 1 ∨ 9999 < t.year then some (.year t.year)
  else if t.month < 1 ∨ 12 < t.month then some .month
  else if t.day < 1 ∨ (daysInMonth t.year.toNat t.month.toNat : Int) < t.day then some .day
  else if t.hour < 0 ∨ 23 < t.hour then some .hour
  else if t.minute < 0 ∨ 59 < t.minute then some .minute
  else if t.second < 0 ∨ 59 < t.second then some .second
  else if t.microsecond < 0 ∨ 999999 < t.microsecond then some .microsecond
  else none

/-- The Unix time of a time, in microseconds. -/
def LocalTime.unixMicroseconds (t : LocalTime) : Int :=
  (midnight (dayNumber ⟨t.year.toNat, t.month.toNat, t.day.toNat⟩) +
    t.hour * 3600 + t.minute * 60 + t.second) * microsecondsPerSecond +
      t.microsecond - t.offset

/-- The whole Unix seconds of a time. -/
def LocalTime.unixSeconds (t : LocalTime) : Int :=
  t.unixMicroseconds / microsecondsPerSecond

/-- The UTC date of a Unix time, if its year is in range. -/
def utcDate? (unix : Int) : Option Date :=
  let day := unix / secondsPerDay + epochDay
  if 0 ≤ day ∧ day < dayCount then some (ofDayNumber day.toNat) else none

/-- Midnight of the UTC day that a Unix time belongs to. -/
def startOfDay (unix : Int) : Except Fault Int :=
  match utcDate? unix with
  | some date => .ok (midnight (dayNumber date))
  | none => .error .dateRange

/-- Midnight of the UTC day that a date and a time of day belong to. -/
def LocalTime.startOfDay (t : LocalTime) : Except Fault Int :=
  Calendar.startOfDay t.unixSeconds

end StakeLedger.Calendar
