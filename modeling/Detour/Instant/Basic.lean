import Detour.Instant.Calendar
import Detour.Text.Digits

/-!
# Instants

An instant is a number of seconds since the beginning of 1970 and a part of a second. During a leap
second, which may follow any second, the part is at least one second; such an instant lies behind all
others of its second and before the next one. Instants are written in universal time, with the fewest
of 0, 3, 6 or 9 digits of the fraction that are exact.
-/

namespace Detour

/-- A point in time. -/
structure Instant where
  /-- whole seconds since the beginning of 1970 -/
  seconds : Int
  /-- nanoseconds since then, at least a second of them during a leap second -/
  nanos : Nat
deriving Repr, DecidableEq

namespace Instant

/-- The nanoseconds of a second. -/
def second : Nat := 1000000000

/-- Whether `a` is not behind `b`. -/
def le (a b : Instant) : Bool :=
  a.seconds < b.seconds || (a.seconds == b.seconds && a.nanos ≤ b.nanos)

/-- Whether `a` is before `b`. -/
def lt (a b : Instant) : Bool := !le b a

/-- No instant is behind itself. -/
theorem le_refl (t : Instant) : t.le t = true := by simp [le]

/-- A year as it is written: four digits, or a sign and at least four digits. -/
def writeYear (year : Int) : Text :=
  if 0 ≤ year ∧ year ≤ 9999 then writePadded 4 year.toNat
  else (if year < 0 then ['-'] else ['+']) ++ writePadded 4 year.natAbs

/-- A part of a second as it is written: nothing, or a point and 3, 6 or 9 digits. -/
def writeFraction (nanos : Nat) : Text :=
  if nanos = 0 then []
  else if nanos % 1000000 = 0 then '.' :: writePadded 3 (nanos / 1000000)
  else if nanos % 1000 = 0 then '.' :: writePadded 6 (nanos / 1000)
  else '.' :: writePadded 9 nanos

/-- An instant as it is written. A leap second is written as second 60. -/
def write (t : Instant) : Text :=
  let date := Date.ofDay (t.seconds / 86400)
  let time := (t.seconds % 86400).toNat
  let sec := time % 60 + if t.nanos < second then 0 else 1
  writeYear date.year ++ ['-'] ++ writePadded 2 date.month ++ ['-'] ++ writePadded 2 date.day ++
    ['T'] ++ writePadded 2 (time / 3600) ++ [':'] ++ writePadded 2 (time / 60 % 60) ++ [':'] ++
    writePadded 2 sec ++ writeFraction (t.nanos % second) ++ ['Z']

/-- The least and the greatest year of an instant. -/
def firstYear : Int := -262143

/-- The greatest year of an instant. -/
def lastYear : Int := 262142

/-- Whether the year of an instant is within bounds. -/
def isInRange (t : Instant) : Bool :=
  Date.toDay ⟨firstYear, 1, 1⟩ * 86400 ≤ t.seconds &&
    t.seconds < (Date.toDay ⟨lastYear, 12, 31⟩ + 1) * 86400

/-- The instant one hour later, if there is one; it is in no leap second. -/
def plusHour? (t : Instant) : Option Instant :=
  some ⟨t.seconds + 3600, if t.nanos < second then t.nanos else t.nanos - second⟩ |>.filter isInRange

/-- An hour later is not before. -/
theorem le_of_plusHour? {t later : Instant} (h : t.plusHour? = some later) : t.le later := by
  obtain ⟨heq, -⟩ := Option.filter_eq_some_iff.1 h
  obtain rfl := Option.some.inj heq
  have hseconds : t.seconds < t.seconds + 3600 := by omega
  simp [le, hseconds]

/-- The instant of a date and a time of day that is ahead of universal time by `offset` seconds.
Second 60 is the leap second behind second 59. -/
def ofCivil? (date : Date) (hour minute sec nanos : Nat) (offset : Int) : Option Instant :=
  if date.isValid && firstYear ≤ date.year && date.year ≤ lastYear && hour < 24 && minute < 60 &&
      sec ≤ 60 then
    let time := hour * 3600 + minute * 60 + min sec 59
    let t : Instant :=
      ⟨date.toDay * 86400 + time - offset, nanos + if sec = 60 then second else 0⟩
    if t.isInRange then some t else none
  else none

example : write ⟨0, 0⟩ = "1970-01-01T00:00:00Z".toList := by decide
example : write ⟨59, 1500000000⟩ = "1970-01-01T00:00:60.500Z".toList := by decide

end Instant

end Detour
