import Quorum.Failure

/-!
# Instants as dates

An instant is a number of milliseconds since the beginning of 1970. Its text form names the day of
the Gregorian calendar and the time of that day, in universal time.

Days are counted in years that begin in March, so that a leap day is the last day of its year. The
calendar ends with the year 262142; a later instant has no date, and asking for one is a fault.
-/

namespace Quorum

/-- A day of the Gregorian calendar. -/
structure Day where
  year : Nat
  month : Nat
  day : Nat
  deriving DecidableEq, Repr

namespace Day

/-- The day that comes the given number of days after the first of January 1970. -/
def ofNumber (number : Nat) : Day :=
  let sinceMarch := number + 719468
  let cycle := sinceMarch / 146097
  let dayOfCycle := sinceMarch % 146097
  let yearOfCycle :=
    (dayOfCycle - dayOfCycle / 1460 + dayOfCycle / 36524 - dayOfCycle / 146096) / 365
  let dayOfYear := dayOfCycle - (365 * yearOfCycle + yearOfCycle / 4 - yearOfCycle / 100)
  let monthFromMarch := (5 * dayOfYear + 2) / 153
  let month := if monthFromMarch < 10 then monthFromMarch + 3 else monthFromMarch - 9
  let year := yearOfCycle + 400 * cycle
  { year := if month ≤ 2 then year + 1 else year
    month
    day := dayOfYear - (153 * monthFromMarch + 2) / 5 + 1 }

example : ofNumber 0 = ⟨1970, 1, 1⟩ := by decide

example : ofNumber 59 = ⟨1970, 3, 1⟩ := by decide

example : ofNumber 11016 = ⟨2000, 2, 29⟩ := by decide

example : ofNumber 19722 = ⟨2023, 12, 31⟩ := by decide

end Day

/-- The last millisecond of the calendar. -/
def lastInstantMs : Nat := 8210266876799999

example : Day.ofNumber (lastInstantMs / 86400000) = ⟨262142, 12, 31⟩ := by decide

example : Day.ofNumber ((lastInstantMs + 1) / 86400000) = ⟨262143, 1, 1⟩ := by decide

/-- An instant that has a date. -/
def datedInstant (ms : Nat) : Except Fault Nat :=
  if ms ≤ lastInstantMs then .ok ms else .error .undated

theorem datedInstant_eq_ok {ms : Nat} (dated : ms ≤ lastInstantMs) :
    datedInstant ms = .ok ms := by
  simp [datedInstant, dated]

/-- A number in decimal digits, filled up with zeros to a width. -/
def padded (width value : Nat) : String :=
  let digits := Nat.toDigits 10 value
  String.ofList (List.replicate (width - digits.length) '0' ++ digits)

/-- The text form of an instant. Milliseconds are shown if there are any. -/
def instantText (ms : Nat) : String :=
  let secs := ms / 1000
  let day := Day.ofNumber (secs / 86400)
  let date := padded 4 day.year ++ "-" ++ padded 2 day.month ++ "-" ++ padded 2 day.day
  let time := padded 2 (secs / 3600 % 24) ++ ":" ++ padded 2 (secs / 60 % 60) ++ ":" ++
    padded 2 (secs % 60)
  let fraction := if ms % 1000 = 0 then "" else "." ++ padded 3 (ms % 1000)
  date ++ "T" ++ time ++ fraction ++ "Z"

end Quorum
