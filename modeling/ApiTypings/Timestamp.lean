/-
Points in time as dates and times of day.
-/
namespace ApiTypings

/-- Seconds since 1970, and the nanoseconds on top of them. A leap second is the last second of a
minute with more than a second of nanoseconds. -/
structure Timestamp where
  seconds : Int
  nanoseconds : Nat := 0

namespace Timestamp

/-- Year, month and day of a count of days since 1970. Years are counted from March, so that the
leap day ends them; 400 of them have 146097 days. -/
def dateOfDays (days : Int) : Int × Nat × Nat :=
  let shifted := days + 719468
  let era := shifted / 146097
  let dayOfEra := (shifted % 146097).toNat
  let yearOfEra := (dayOfEra - dayOfEra / 1460 + dayOfEra / 36524 - dayOfEra / 146096) / 365
  let dayOfYear := dayOfEra - (365 * yearOfEra + yearOfEra / 4 - yearOfEra / 100)
  let monthIndex := (5 * dayOfYear + 2) / 153
  let day := dayOfYear - (153 * monthIndex + 2) / 5 + 1
  let month := if monthIndex < 10 then monthIndex + 3 else monthIndex - 9
  let year := era * 400 + yearOfEra + (if month ≤ 2 then 1 else 0)
  (year, month, day)

/-- A number with zeros in front up to `width` digits. -/
def padded (width n : Nat) : String :=
  let digits := toString n
  String.ofList (List.replicate (width - digits.length) '0') ++ digits

/-- Years of four digits stand alone, all others have a sign. -/
def renderYear (year : Int) : String :=
  if 0 ≤ year ∧ year ≤ 9999 then padded 4 year.toNat
  else (if year < 0 then "-" else "+") ++ padded 4 year.natAbs

/-- Date and time of day in universal time, to the millisecond. -/
def render (time : Timestamp) : String :=
  let (year, month, day) := dateOfDays (time.seconds / 86400)
  let secondOfDay := (time.seconds % 86400).toNat
  let second := secondOfDay % 60 + time.nanoseconds / 1000000000
  let millisecond := time.nanoseconds % 1000000000 / 1000000
  renderYear year ++ "-" ++ padded 2 month ++ "-" ++ padded 2 day
    ++ "T" ++ padded 2 (secondOfDay / 3600) ++ ":" ++ padded 2 (secondOfDay / 60 % 60)
    ++ ":" ++ padded 2 second ++ "." ++ padded 3 millisecond ++ "Z"

end Timestamp
end ApiTypings
