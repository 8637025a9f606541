/-!
# Stamps

Dates, times of day and both together, as documents give them. A time of day has microseconds, and
a date with a time may say how far its zone is from universal time.

`Stamp.text` is the usual written form. `Stamp.literal` is the form that a stamp takes inside of
other values: its parts one by one, in which seconds and microseconds at the end that are zero are
left out.
-/

namespace QuadraticVoting

/-- A number with at least as many digits as the width. -/
def Text.padded (width n : Nat) : String :=
  let ds := Nat.toDigits 10 n
  String.ofList (List.replicate (width - ds.length) '0' ++ ds)

structure Date where
  year : Nat
  month : Nat
  day : Nat
deriving DecidableEq, Inhabited

namespace Date

def isLeap (year : Nat) : Bool := year % 4 == 0 && (year % 100 != 0 || year % 400 == 0)

def daysIn (year month : Nat) : Nat :=
  if month = 2 then if isLeap year then 29 else 28
  else if month = 4 ∨ month = 6 ∨ month = 9 ∨ month = 11 then 30
  else 31

/-- Whether there is such a date. -/
def isValid (d : Date) : Bool :=
  1 ≤ d.year && 1 ≤ d.month && d.month ≤ 12 && 1 ≤ d.day && d.day ≤ daysIn d.year d.month

def text (d : Date) : String :=
  Text.padded 4 d.year ++ "-" ++ Text.padded 2 d.month ++ "-" ++ Text.padded 2 d.day

def parts (d : Date) : List String := [toString d.year, toString d.month, toString d.day]

end Date

structure TimeOfDay where
  hour : Nat
  minute : Nat
  second : Nat
  micro : Nat
deriving DecidableEq, Inhabited

namespace TimeOfDay

def text (t : TimeOfDay) : String :=
  Text.padded 2 t.hour ++ ":" ++ Text.padded 2 t.minute ++ ":" ++ Text.padded 2 t.second ++
    if t.micro = 0 then "" else "." ++ Text.padded 6 t.micro

def parts (t : TimeOfDay) : List String :=
  [toString t.hour, toString t.minute] ++
    if t.micro ≠ 0 then [toString t.second, toString t.micro]
    else if t.second ≠ 0 then [toString t.second]
    else []

end TimeOfDay

/-- How many minutes a zone is ahead of universal time. -/
structure Zone where
  minutes : Int
deriving DecidableEq, Inhabited

namespace Zone

def text (z : Zone) : String :=
  let n := z.minutes.natAbs
  (if z.minutes < 0 then "-" else "+") ++ Text.padded 2 (n / 60) ++ ":" ++ Text.padded 2 (n % 60)

/-- A zone behind universal time is written as a day behind, and so many seconds ahead of that. -/
def literal (z : Zone) : String :=
  let seconds := 60 * z.minutes
  if seconds = 0 then "datetime.timezone.utc"
  else
    let span :=
      if seconds < 0 then s!"days=-1, seconds={seconds + 86400}" else s!"seconds={seconds}"
    s!"datetime.timezone(datetime.timedelta({span}))"

end Zone

inductive Stamp
  | date (d : Date)
  | time (t : TimeOfDay)
  | dateTime (d : Date) (t : TimeOfDay) (zone : Option Zone)
deriving DecidableEq, Inhabited

namespace Stamp

def text : Stamp → String
  | date d => d.text
  | time t => t.text
  | dateTime d t zone => d.text ++ " " ++ t.text ++ (zone.map Zone.text).getD ""

def typeName : Stamp → String
  | date _ => "date"
  | time _ => "time"
  | dateTime .. => "datetime"

def parts : Stamp → List String
  | date d => d.parts
  | time t => t.parts
  | dateTime d t zone => d.parts ++ t.parts ++ (zone.map ("tzinfo=" ++ ·.literal)).toList

def literal (s : Stamp) : String :=
  "datetime." ++ s.typeName ++ "(" ++ ", ".intercalate s.parts ++ ")"

end Stamp

end QuadraticVoting
