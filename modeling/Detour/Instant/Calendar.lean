/-!
# The calendar

Dates of the Gregorian calendar, continued without bounds in both directions, and their numbers: day
0 is 1970-01-01. `Date.toDay` counts the days before a date, and `Date.ofDay` finds the date again by
its place in the cycles of 400, 100, 4 and 1 years.
-/

namespace Detour

/-- A date of the calendar. -/
structure Date where
  /-- the year; the year before year 1 is year 0 -/
  year : Int
  /-- the month, from 1 on -/
  month : Nat
  /-- the day of the month, from 1 on -/
  day : Nat
deriving Repr, DecidableEq

namespace Date

/-- Whether a year has a leap day. -/
def isLeap (year : Int) : Bool := year % 4 = 0 && (year % 100 ≠ 0 || year % 400 = 0)

/-- The number of days of a month. -/
def monthLength (year : Int) (month : Nat) : Nat :=
  match month with
  | 2 => if isLeap year then 29 else 28
  | 4 | 6 | 9 | 11 => 30
  | _ => 31

/-- Whether a date is on the calendar. -/
def isValid (d : Date) : Bool :=
  1 ≤ d.month && d.month ≤ 12 && 1 ≤ d.day && d.day ≤ monthLength d.year d.month

/-- The number of days from 0001-01-01 to the first day of a year. -/
def yearStart (year : Int) : Int :=
  let y := year - 1
  365 * y + y / 4 - y / 100 + y / 400

/-- The number of days of a year before its month number `n + 1`. -/
def monthStart (year : Int) : (n : Nat) → Nat
  | 0 => 0
  | n + 1 => monthStart year n + monthLength year (n + 1)

/-- The number of days from 0001-01-01 to 1970-01-01. -/
def origin : Int := 719162

/-- The number of a date. -/
def toDay (d : Date) : Int := yearStart d.year + monthStart d.year (d.month - 1) + (d.day - 1) - origin

/-- The month and the day of the month of the day `n`, counted from 0, of a year, where `month` is not
behind it. -/
def inYear (year : Int) : (fuel month n : Nat) → Nat × Nat
  | 0, month, n => (month, n + 1)
  | fuel + 1, month, n =>
    let size := monthLength year month
    if n < size then (month, n + 1) else inYear year fuel (month + 1) (n - size)

/-- The date with a number. -/
def ofDay (day : Int) : Date :=
  let n := day + origin
  let inCycle := n % 146097
  let centuries := min (inCycle / 36524) 3
  let inCentury := inCycle - 36524 * centuries
  let inFour := inCentury % 1461
  let years := min (inFour / 365) 3
  let year := 400 * (n / 146097) + 100 * centuries + 4 * (inCentury / 1461) + years + 1
  let (month, dayOfMonth) := inYear year 12 1 (inFour - 365 * years).toNat
  ⟨year, month, dayOfMonth⟩

example : toDay ⟨1970, 1, 1⟩ = 0 ∧ ofDay 0 = ⟨1970, 1, 1⟩ := by decide
example : toDay ⟨2024, 2, 29⟩ = 19782 ∧ ofDay 19782 = ⟨2024, 2, 29⟩ := by decide
example : ofDay (toDay ⟨-1, 12, 31⟩) = ⟨-1, 12, 31⟩ := by decide

end Date

end Detour
