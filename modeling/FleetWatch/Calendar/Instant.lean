/-!
Instants and the civil calendar.

An instant is a number of seconds since the start of 1970 and a fraction in nanoseconds.  During a
leap second the fraction runs on from `10^9`, on the second before it.  Dates follow the Gregorian
calendar, extended backwards; the calendar ends where its years leave `firstYear` to `lastYear`.
-/

namespace FleetWatch

structure Instant where
  secs : Int
  nanos : Nat
deriving Repr, DecidableEq, Inhabited

namespace Instant

/-- The years of the calendar. -/
def firstYear : Int := -262143

/-- The last year of the calendar. -/
def lastYear : Int := 262142

def daySecs : Int := 86400

/-- Days from the start of 1970 to the start of March of a year, counting years from March so that
the leap day is the last of its year. -/
def daysToMarch (year : Int) : Int :=
  365 * year + year / 4 - year / 100 + year / 400 - 719468

/-- Days from the first of March to the first of a month counted from March (March is 0). -/
def daysBeforeMonth (m : Int) : Int :=
  (153 * m + 2) / 5

/-- The day number of a date, with the first of January 1970 as day 0. -/
def dayOfDate (year month day : Int) : Int :=
  if month ≤ 2 then daysToMarch (year - 1) + daysBeforeMonth (month + 9) + (day - 1)
  else daysToMarch year + daysBeforeMonth (month - 3) + (day - 1)

/-- Whether a year has a leap day. -/
def isLeapYear (year : Int) : Bool :=
  year % 4 == 0 && (year % 100 != 0 || year % 400 == 0)

def monthLength (year month : Int) : Int :=
  if month == 2 then (if isLeapYear year then 29 else 28)
  else if month == 4 || month == 6 || month == 9 || month == 11 then 30
  else 31

def isDate (year month day : Int) : Bool :=
  1 ≤ month && month ≤ 12 && 1 ≤ day && day ≤ monthLength year month

/-- The first second of the calendar. -/
def firstSec : Int := dayOfDate firstYear 1 1 * daySecs

/-- The last second of the calendar. -/
def lastSec : Int := dayOfDate (lastYear + 1) 1 1 * daySecs - 1

/-- Whether a second lies in the calendar. -/
def inCalendar (secs : Int) : Bool :=
  firstSec ≤ secs && secs ≤ lastSec

/-- The instant at a whole second of the calendar. -/
def ofSecs? (secs : Int) : Option Instant :=
  if inCalendar secs then some ⟨secs, 0⟩ else none

/-- An instant moved by whole seconds, if the calendar reaches that far.  Going back from a leap
second counts it; going forward from one does not count the rest of it. -/
def addSecs? (t : Instant) (delta : Int) : Option Instant :=
  let (secs, nanos) :=
    if t.nanos < 1000000000 ∨ delta = 0 then (t.secs + delta, t.nanos)
    else if 0 < delta then (t.secs + delta, t.nanos - 1000000000)
    else (t.secs + 1 + delta, t.nanos - 1000000000)
  if inCalendar secs then some ⟨secs, nanos⟩ else none

/-- An instant in milliseconds, rounded down. -/
def millis (t : Instant) : Int :=
  t.secs * 1000 + (t.nanos / 1000000 : Nat)

/-- The instant of a number of milliseconds. -/
def ofMillis (ms : Int) : Instant :=
  ⟨ms / 1000, (ms % 1000).toNat * 1000000⟩

end Instant

end FleetWatch
