/-!
# Points in time and calendar dates

A point in time is a day, a second of that day and a part of that second, all in universal time.
Days are counted from the first of January 1970, in the Gregorian calendar carried on to all years.
A leap second is the 59th second of its minute with a part of one second or more.

## Main definitions

* `BoxArrow.Timestamp` — points in time.
* `BoxArrow.Date`, `BoxArrow.Date.toDay`, `BoxArrow.Date.ofDay` — calendar dates and their days.
* `BoxArrow.Timestamp.millis` — milliseconds since 1970.
-/

namespace BoxArrow

/-- A point in time. -/
structure Timestamp where
  /-- Days since the first of January 1970. -/
  day : Int
  /-- Seconds since the start of the day, below 86400. -/
  second : Nat
  /-- Nanoseconds since the start of the second, below two thousand million. -/
  nano : Nat
deriving DecidableEq, Repr, Inhabited

/-- A date of the Gregorian calendar. Months and days are counted from one. -/
structure Date where
  year : Int
  month : Nat
  day : Nat
deriving DecidableEq, Repr

namespace Date

/-- Whether a year has a 29th of February. -/
def isLeap (year : Int) : Bool :=
  year % 4 == 0 && (year % 100 != 0 || year % 400 == 0)

/-- How many days the months of a year have, in order. -/
def monthLengths (year : Int) : List Nat :=
  [31, if isLeap year then 29 else 28, 31, 30, 31, 30, 31, 31, 30, 31, 30, 31]

/-- Whether a date is in the calendar. -/
def isValid (d : Date) : Bool :=
  1 ≤ d.month && 1 ≤ d.day && d.day ≤ (((monthLengths d.year)[d.month - 1]?).getD 0)

/-- How many days lie before the first of January of a year, counted from the year 1. -/
def daysBefore (year : Int) : Int :=
  let y := year - 1
  365 * y + y / 4 - y / 100 + y / 400

/-- The number of the first of January 1970 when days are counted from the year 1. -/
def epoch : Int :=
  daysBefore 1970

/-- How many days of a year lie before the first of a month. -/
def daysOfMonthsBefore (year : Int) (month : Nat) : Nat :=
  ((monthLengths year).take (month - 1)).foldl (· + ·) 0

/-- The day of a date. -/
def toDay (d : Date) : Int :=
  daysBefore d.year + daysOfMonthsBefore d.year d.month + (d.day - 1 : Nat) - epoch

/-- The month and the day of the month, from a day of the year counted from zero. -/
def monthAndDay (month : Nat) : List Nat → Nat → Nat × Nat
  | [], n => (month, n + 1)
  | length :: rest, n =>
    if n < length then (month, n + 1) else monthAndDay (month + 1) rest (n - length)

/-- The year that a day falls into; days are counted from the year 1. -/
def yearOf (n : Int) : Int :=
  let guess := n * 400 / 146097 + 1
  if n < daysBefore guess then guess - 1
  else if daysBefore (guess + 1) ≤ n then guess + 1
  else guess

/-- The date of a day. -/
def ofDay (day : Int) : Date :=
  let n := day + epoch
  let year := yearOf n
  let (month, dayOfMonth) := monthAndDay 1 (monthLengths year) (n - daysBefore year).toNat
  ⟨year, month, dayOfMonth⟩

end Date

namespace Timestamp

/-- Milliseconds since the start of 1970, rounded down. -/
def millis (t : Timestamp) : Int :=
  t.day * 86400000 + t.second * 1000 + t.nano / 1000000

/-- The point in time that is so many nanoseconds after the start of 1970. -/
def ofNanos (n : Int) : Timestamp where
  day := n / 86400000000000
  second := (n / 1000000000 % 86400).toNat
  nano := (n % 1000000000).toNat

/-- The point in time that is so many milliseconds after the start of 1970. -/
def ofMillis (n : Int) : Timestamp :=
  ofNanos (n * 1000000)

end Timestamp

end BoxArrow
