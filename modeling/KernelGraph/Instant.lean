/-!
# Instants

A moment as a log gives it: date and time of day in Coordinated Universal Time, to the microsecond.
Dates are those of the Gregorian calendar, counted in days from the first of January 1970.

## Main definitions

* `Date`, `Date.ofDays` — the date after a number of days
* `Instant`, `Instant.describe` — a moment, and its date and time as a text
-/

namespace KernelGraph

/-- A date of the calendar. -/
structure Date where
  year : Nat
  month : Nat
  day : Nat
  deriving DecidableEq, Repr

namespace Date

/-- The days of four hundred years, after which the calendar repeats. -/
def cycle : Nat := 146097

/-- The days from the first of March of the year 0 to the first of January 1970. -/
def daysBefore1970 : Nat := 719468

/-- The date so many days after the first of January 1970. Years are taken to start in March here,
so that a leap day is the last day of its year. -/
def ofDays (days : Nat) : Date :=
  let day := (days + daysBefore1970) % cycle
  let year := (day - day / 1460 + day / 36524 - day / 146096) / 365
  let day := day - (365 * year + year / 4 - year / 100)
  let month := (5 * day + 2) / 153
  let year := year + (days + daysBefore1970) / cycle * 400
  let day := day - (153 * month + 2) / 5 + 1
  if month < 10 then ⟨year, month + 3, day⟩ else ⟨year + 1, month - 9, day⟩

example : ofDays 0 = ⟨1970, 1, 1⟩ := by decide

-- of the years that end a century only every fourth has a leap day
example : ofDays 11016 = ⟨2000, 2, 29⟩ ∧ ofDays 47540 = ⟨2100, 2, 28⟩
    ∧ ofDays 47541 = ⟨2100, 3, 1⟩ := by decide

end Date

/-- A moment: the microseconds since the first of January 1970. -/
structure Instant where
  microseconds : Nat
  deriving DecidableEq, Repr, Inhabited

namespace Instant

/-- A number in decimal digits, with zeros in front up to a width. -/
def padded (width n : Nat) : String :=
  let ds := Nat.toDigits 10 n
  String.ofList (List.replicate (width - ds.length) '0' ++ ds)

/-- The date and the time of day of a moment. -/
def describe (i : Instant) : String :=
  let seconds := i.microseconds / 1000000
  let date := Date.ofDays (seconds / 86400)
  padded 4 date.year ++ "-" ++ padded 2 date.month ++ "-" ++ padded 2 date.day
    ++ "T" ++ padded 2 (seconds / 3600 % 24) ++ ":" ++ padded 2 (seconds / 60 % 60)
    ++ ":" ++ padded 2 (seconds % 60) ++ "." ++ padded 6 (i.microseconds % 1000000) ++ "Z"

end Instant

end KernelGraph
