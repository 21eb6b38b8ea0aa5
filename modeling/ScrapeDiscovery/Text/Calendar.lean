/-!
# Dates

A moment is a number of seconds since the beginning of 1970 in universal time.
Dates are those of the Gregorian calendar, also before it was introduced. The
days of a year are counted from the first of March, so that a leap day is the last
of them.
-/

namespace ScrapeDiscovery.Text

/-- A date. -/
structure Date where
  year : Int
  month : Nat
  day : Nat
  deriving DecidableEq, Repr

/-- The days from the first of March of the year 0 to the beginning of 1970. -/
def epochDays : Int := 719468

/-- The days of 400 years. -/
def cycleDays : Int := 146097

/-- The date of a day since the beginning of 1970. -/
def Date.ofDay (day : Int) : Date :=
  let shifted := day + epochDays
  let cycle := shifted.fdiv cycleDays
  let dayOfCycle := (shifted.fmod cycleDays).toNat
  let yearOfCycle :=
    (dayOfCycle - dayOfCycle / 1460 + dayOfCycle / 36524 - dayOfCycle / 146096) / 365
  let dayOfYear := dayOfCycle - (365 * yearOfCycle + yearOfCycle / 4 - yearOfCycle / 100)
  let marchMonth := (5 * dayOfYear + 2) / 153
  let month := if marchMonth < 10 then marchMonth + 3 else marchMonth - 9
  { year := yearOfCycle + cycle * 400 + (if month ≤ 2 then 1 else 0)
    month
    day := dayOfYear - (153 * marchMonth + 2) / 5 + 1 }

/-- A number with zeros in front up to a count of digits. -/
def zeroPadded (count n : Nat) : String :=
  let digits := Nat.toDigits 10 n
  String.ofList (List.replicate (count - digits.length) '0' ++ digits)

/-- A year: four digits, and a sign for years that are not written with four. -/
def yearText (year : Int) : String :=
  if 0 ≤ year && year ≤ 9999 then zeroPadded 4 year.toNat
  else (if year < 0 then "-" else "+") ++ zeroPadded 4 year.natAbs

/-- A date with dashes. -/
def Date.text (d : Date) : String :=
  yearText d.year ++ "-" ++ zeroPadded 2 d.month ++ "-" ++ zeroPadded 2 d.day

/-- The first and the last moment that have a date here. -/
def firstMoment : Int := -8334601228800

/-- The last moment that has a date here. -/
def lastMoment : Int := 8210266876799

/-- The hour, the minute and the second of a moment. -/
def timeOfDay (seconds : Int) : Nat × Nat × Nat :=
  let s := (seconds.fmod 86400).toNat
  (s / 3600, s / 60 % 60, s % 60)

/-- Date and time of a moment; a moment that has no date here is written as a number. -/
def momentText (seconds : Int) : String :=
  if firstMoment ≤ seconds && seconds ≤ lastMoment then
    let (hour, minute, second) := timeOfDay seconds
    (Date.ofDay (seconds.fdiv 86400)).text ++ " " ++ zeroPadded 2 hour ++ ":" ++
      zeroPadded 2 minute ++ ":" ++ zeroPadded 2 second
  else toString seconds

end ScrapeDiscovery.Text
