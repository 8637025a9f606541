import QuadraticVoting.Fault

/-!
# Moments

A second of time as a date of the Gregorian calendar and a time of day, in universal time. The
calendar repeats after 400 years, which are 146097 days; `Moment.ofSeconds` counts from the first
of March, so that the leap day comes last in its year.
-/

namespace QuadraticVoting.Log

structure Moment where
  year : Int
  month : Nat
  day : Nat
  hour : Nat
  minute : Nat
  second : Nat
deriving DecidableEq, Inhabited

namespace Moment

/-- The days from the first of March of year 0 to the first of January 1970. -/
def epochDays : Int := 719468

def daysPerEra : Int := 146097

/-- The year, counted from March, and the day in it, of a day in an era of 400 years. -/
def yearOfEra (day : Nat) : Nat × Nat :=
  let year := (day - day / 1460 + day / 36524 - day / 146096) / 365
  (year, day - (365 * year + year / 4 - year / 100))

/-- The month, of which March is 0, and the day in it, of a day in a year from March. -/
def monthOfYear (day : Nat) : Nat × Nat :=
  let month := (5 * day + 2) / 153
  (month, day - (153 * month + 2) / 5)

/-- The date, as year, month and day, of the day that comes the given number of days after the
first of January 1970. -/
def date (days : Int) : Int × Nat × Nat :=
  let shifted := days + epochDays
  let (year, dayOfYear) := yearOfEra (shifted % daysPerEra).toNat
  let (month, day) := monthOfYear dayOfYear
  let year : Int := year + 400 * (shifted / daysPerEra)
  if month < 10 then (year, month + 3, day + 1) else (year + 1, month - 9, day + 1)

def secondsPerDay : Int := 86400

/-- The bound of the seconds that can be counted. -/
def secondLimit : Int := 0x8000000000000000

/-- The first and the last year of which there is a date. -/
def firstYear : Int := -2147481748

def lastYear : Int := 2147485547

/-- The last year that can be written. -/
def lastWrittenYear : Int := 2147483647

def dateOfSecond (seconds : Int) : Int × Nat × Nat := date (seconds / secondsPerDay)

/-- The moment that comes the given number of seconds after the start of 1970. -/
def ofSeconds (seconds : Int) : Except Fault Moment :=
  let (year, month, day) := dateOfSecond seconds
  let time := (seconds % secondsPerDay).toNat
  if seconds < -secondLimit ∨ secondLimit ≤ seconds then .error .secondOutOfRange
  else if year < firstYear ∨ lastYear < year then .error .yearTooFar
  else if lastWrittenYear < year then .error .yearTooLong
  else .ok ⟨year, month, day, time / 3600, time / 60 % 60, time % 60⟩

/-- A number below 100 with two digits. -/
def twoDigits (n : Nat) : List Char := [Nat.digitChar (n / 10), Nat.digitChar (n % 10)]

/-- The year as it is, and all else with two digits. -/
def text (m : Moment) : String :=
  toString m.year ++ String.ofList
    ('-' :: twoDigits m.month ++ '-' :: twoDigits m.day ++ 'T' :: twoDigits m.hour
      ++ ':' :: twoDigits m.minute ++ ':' :: twoDigits m.second)

end Moment

end QuadraticVoting.Log
