import JitTrace.Text.Layout

/-! # Moments

A moment as text, in universal time: date, time of day, and as many digits of the second's
fraction as it needs in groups of three. Dates follow the Gregorian calendar, counted in its cycles
of 400 years from the first of March of the year 0, so that the leap day ends a year.
-/

namespace JitTrace

/-- Seconds and nanoseconds since the start of 1970. -/
structure Moment where
  seconds : Nat
  nanoseconds : Nat
  deriving DecidableEq, Repr

namespace Moment

/-- The days from the first of March of the year 0 to the start of 1970. -/
def epochDays : Nat := 719468

/-- Year, month and day, by the number of days since the first of March of the year 0. -/
def civilDate (days : Nat) : Nat × Nat × Nat :=
  let dayOfCycle := days % 146097
  let yearOfCycle :=
    (dayOfCycle - dayOfCycle / 1460 + dayOfCycle / 36524 - dayOfCycle / 146096) / 365
  let dayOfYear := dayOfCycle - (365 * yearOfCycle + yearOfCycle / 4 - yearOfCycle / 100)
  let monthFromMarch := (5 * dayOfYear + 2) / 153
  let day := dayOfYear - (153 * monthFromMarch + 2) / 5 + 1
  let month := if monthFromMarch < 10 then monthFromMarch + 3 else monthFromMarch - 9
  let year := days / 146097 * 400 + yearOfCycle
  (if month ≤ 2 then year + 1 else year, month, day)

/-- A number with zeros in front, up to `width` digits. -/
def digits (width number : Nat) : String :=
  let text := toString number
  String.ofList (List.replicate (width - text.length) '0') ++ text

/-- The fraction of a second. -/
def fraction (nanoseconds : Nat) : String :=
  if nanoseconds = 0 then ""
  else if nanoseconds % 1000000 = 0 then "." ++ digits 3 (nanoseconds / 1000000)
  else if nanoseconds % 1000 = 0 then "." ++ digits 6 (nanoseconds / 1000)
  else "." ++ digits 9 nanoseconds

/-- A moment as text. -/
def text (moment : Moment) : String :=
  let (year, month, day) := civilDate (moment.seconds / 86400 + epochDays)
  let second := moment.seconds % 86400
  let date := digits 4 year ++ "-" ++ digits 2 month ++ "-" ++ digits 2 day
  let time := digits 2 (second / 3600) ++ ":" ++ digits 2 (second / 60 % 60) ++ ":" ++
    digits 2 (second % 60)
  date ++ "T" ++ time ++ fraction moment.nanoseconds ++ "+00:00"

end Moment

end JitTrace
