import Scrutiny.Review.Session

/-!
# Calendar

The date and the time of day at a number of seconds after the start of the year 1970, without
leap seconds.
-/

namespace Scrutiny

/-- A date with a time of day. -/
structure Moment where
  year : Nat
  month : Nat
  day : Nat
  hour : Nat
  minute : Nat
  second : Nat
  deriving DecidableEq, Repr, Inhabited

namespace Moment

/-- The number of days in 400 years. -/
def daysPerEra : Nat := 146097

/-- The number of days from the first of March of the year 0 to the start of the year 1970. -/
def daysBefore1970 : Nat := 719468

/-- The moment at a number of seconds after the start of the year 1970.  Years are counted from
March on, so that a leap day is the last day of its year. -/
def ofSeconds (seconds : Nat) : Moment :=
  let days := seconds / 86400 + daysBefore1970
  let inEra := days % daysPerEra
  let yearOfEra := (inEra - inEra / 1460 + inEra / 36524 - inEra / 146096) / 365
  let inYear := inEra - (365 * yearOfEra + yearOfEra / 4 - yearOfEra / 100)
  let marchMonth := (5 * inYear + 2) / 153
  let month := if marchMonth < 10 then marchMonth + 3 else marchMonth - 9
  let ofDay := seconds % 86400
  { year := days / daysPerEra * 400 + yearOfEra + (if month ≤ 2 then 1 else 0)
    month
    day := inYear - (153 * marchMonth + 2) / 5 + 1
    hour := ofDay / 3600
    minute := ofDay % 3600 / 60
    second := ofDay % 60 }

/-- A number with zeros in front. -/
def padded (width n : Nat) : String :=
  let digits := toString n
  String.ofList (List.replicate (width - digits.length) '0') ++ digits

/-- The date. -/
def dateText (moment : Moment) : String :=
  padded 4 moment.year ++ "-" ++ padded 2 moment.month ++ "-" ++ padded 2 moment.day

/-- The time of day. -/
def timeText (moment : Moment) : String :=
  padded 2 moment.hour ++ ":" ++ padded 2 moment.minute ++ ":" ++ padded 2 moment.second

/-- The last day of a February with 29 days. -/
example : ofSeconds 1709251199 =
    { year := 2024, month := 2, day := 29, hour := 23, minute := 59, second := 59 } := by
  decide

/-- The start of the count. -/
example : ofSeconds 0 =
    { year := 1970, month := 1, day := 1, hour := 0, minute := 0, second := 0 } := by
  decide

end Moment

/-- The clock at a number of seconds after the start of the year 1970. -/
def Clock.ofSeconds (seconds nanoseconds : Nat) : Clock :=
  let moment := Moment.ofSeconds seconds
  { seconds
    date := moment.dateText ++ " " ++ moment.timeText
    instant := moment.dateText ++ "T" ++ moment.timeText ++ "."
      ++ Moment.padded 9 nanoseconds ++ "+00:00" }

end Scrutiny
