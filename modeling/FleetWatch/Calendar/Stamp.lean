import FleetWatch.Calendar.Instant
/-!
Writing instants of the years 0 to 9999 as RFC 3339 time stamps in UTC.
-/

namespace FleetWatch

namespace Instant

/-- The date of a day number, counting from the first of March of year 0 in spans of 400 years, each
of 146097 days. -/
def dateOfDay (day : Int) : Int × Int × Int :=
  let shifted := day + 719468
  let span := shifted / 146097
  let dayOfSpan := shifted % 146097
  let yearOfSpan := (dayOfSpan - dayOfSpan / 1460 + dayOfSpan / 36524 - dayOfSpan / 146096) / 365
  let dayOfYear := dayOfSpan - (365 * yearOfSpan + yearOfSpan / 4 - yearOfSpan / 100)
  let fromMarch := (5 * dayOfYear + 2) / 153
  let year := yearOfSpan + span * 400
  let dayOfMonth := dayOfYear - daysBeforeMonth fromMarch + 1
  if fromMarch < 10 then (year, fromMarch + 3, dayOfMonth)
  else (year + 1, fromMarch - 9, dayOfMonth)

example : dateOfDay (dayOfDate 2024 2 29) = (2024, 2, 29) := by decide
example : dateOfDay (dayOfDate 2025 12 31) = (2025, 12, 31) := by decide

/-- A number in at least so many digits. -/
def padded (width : Nat) (n : Int) : String :=
  let digits := (toString n.toNat).toList
  String.ofList (List.replicate (width - digits.length) '0' ++ digits)

def stamp (t : Instant) : String :=
  let (year, month, day) := dateOfDay (t.secs / daySecs)
  let rest := t.secs % daySecs
  padded 4 year ++ "-" ++ padded 2 month ++ "-" ++ padded 2 day ++ "T" ++
    padded 2 (rest / 3600) ++ ":" ++ padded 2 (rest / 60 % 60) ++ ":" ++ padded 2 (rest % 60) ++
    "." ++ padded 9 t.nanos ++ "Z"

end Instant

end FleetWatch
