import QuadraticVoting.Toml.Text
import QuadraticVoting.Value

/-!
# TOML numbers, dates and times

Integers in four bases, numbers with a point or a power of ten, and dates and times. Single
underscores may stand between digits.
-/

namespace QuadraticVoting.Toml

/-- The most digits that a decimal integer may have. -/
def maxDigits : Nat := 4300

def isDecimal (c : Char) : Bool := '0' ≤ c && c ≤ '9'

/-- More digits, each of which may follow an underscore, and what is left. -/
def moreDigits (p : Char → Bool) : List Char → List Char × List Char
  | [] => ([], [])
  | '_' :: c :: cs =>
    if p c then
      let (ds, rest) := moreDigits p cs
      (c :: ds, rest)
    else ([], '_' :: c :: cs)
  | c :: cs =>
    if p c then
      let (ds, rest) := moreDigits p cs
      (c :: ds, rest)
    else ([], c :: cs)

def digits? (p : Char → Bool) : List Char → Option (List Char × List Char)
  | [] => none
  | c :: cs =>
    if p c then
      let (ds, rest) := moreDigits p cs
      some (c :: ds, rest)
    else none

/-- The number that digits write in a base. -/
def ofBase (base : Nat) (ds : List Char) : Nat := ds.foldl (fun n c => base * n + hexValue c) 0

/-- The base that a letter after a zero stands for. -/
def baseOf? (c : Char) : Option Nat :=
  if c = 'x' then some 16 else if c = 'o' then some 8 else if c = 'b' then some 2 else none

def isDigitOf (base : Nat) (c : Char) : Bool := isHex c && hexValue c < base

/-- An integer in a base other than ten. -/
def based? : List Char → Option (Nat × List Char)
  | '0' :: c :: cs => do
    let base ← baseOf? c
    let (ds, rest) ← digits? (isDigitOf base) cs
    return (ofBase base ds, rest)
  | _ => none

def sign : List Char → Bool × List Char
  | '-' :: cs => (true, cs)
  | '+' :: cs => (false, cs)
  | cs => (false, cs)

/-- The digits before a point: a zero alone, or digits that do not start with one. -/
def whole? : List Char → Option (List Char × List Char)
  | '0' :: cs => some (['0'], cs)
  | cs => digits? isDecimal cs

def fraction? : List Char → Option (List Char × List Char)
  | '.' :: cs => digits? isDecimal cs
  | _ => none

def power? : List Char → Option (Int × List Char)
  | c :: cs =>
    if c = 'e' ∨ c = 'E' then do
      let (negative, cs) := sign cs
      let (ds, rest) ← digits? isDecimal cs
      let n : Int := ofBase 10 ds
      return (if negative then -n else n, rest)
    else none
  | [] => none

/-- A decimal number; an integer, when it has neither a point nor a power. -/
def decimal? (cs : List Char) : Option (Except Problem Value × List Char) := do
  let (negative, cs) := sign cs
  let (whole, cs) ← whole? cs
  let fraction := fraction? cs
  let (places, cs) := fraction.getD ([], cs)
  let power := power? cs
  let (exponent, cs) := power.getD (0, cs)
  if fraction.isSome || power.isSome then
    let x := Double.ofDecimal negative (ofBase 10 (whole ++ places)) (exponent - places.length)
    return (.ok (.real x), cs)
  else if maxDigits < whole.length then return (.error (.tooManyDigits whole.length), cs)
  else
    let n : Int := ofBase 10 whole
    return (.ok (.int (if negative then -n else n)), cs)

def number? (cs : List Char) : Option (Except Problem Value × List Char) :=
  match based? cs with
  | some (n, rest) => some (.ok (.int n), rest)
  | none => decimal? cs

/-- The words for what is no finite number. -/
def special? (cs : List Char) : Option (Value × List Char) :=
  let (negative, rest) := sign cs
  match rest with
  | a :: b :: c :: rest =>
    let word := String.ofList [a, b, c]
    if word = "inf" then some (.real (.infinite negative), rest)
    else if word = "nan" then some (.real .nan, rest)
    else none
  | _ => none

/-! ### Dates and times -/

/-- A number of exactly `n` digits within bounds. -/
def field? (n low high : Nat) (cs : List Char) : Option (Nat × List Char) :=
  let ds := cs.take n
  let k := ofBase 10 ds
  if ds.length = n ∧ ds.all isDecimal ∧ low ≤ k ∧ k ≤ high then some (k, cs.drop n) else none

def after? (c : Char) : List Char → Option (List Char)
  | [] => none
  | d :: cs => if d = c then some cs else none

/-- A date, which may be of the right form and yet none. -/
def date? (cs : List Char) : Option (Except Problem Date × List Char) := do
  let (year, cs) ← field? 4 0 9999 cs
  let cs ← after? '-' cs
  let (month, cs) ← field? 2 1 12 cs
  let cs ← after? '-' cs
  let (day, cs) ← field? 2 1 31 cs
  let date : Date := ⟨year, month, day⟩
  return (if date.isValid then .ok date else .error .malformed, cs)

/-- The microseconds that a fraction of a second begins with; further digits do not count. -/
def micros (cs : List Char) : Nat × List Char :=
  match cs with
  | '.' :: c :: rest =>
    if isDecimal c then
      let ds := (c :: rest.takeWhile isDecimal).take 6
      (ofBase 10 ds * Nat.pow 10 (6 - ds.length), rest.dropWhile isDecimal)
    else (0, cs)
  | _ => (0, cs)

def time? (cs : List Char) : Option (TimeOfDay × List Char) := do
  let (hour, cs) ← field? 2 0 23 cs
  let cs ← after? ':' cs
  let (minute, cs) ← field? 2 0 59 cs
  let cs ← after? ':' cs
  let (second, cs) ← field? 2 0 59 cs
  let (micro, cs) := micros cs
  return (⟨hour, minute, second, micro⟩, cs)

def zone? : List Char → Option (Zone × List Char)
  | [] => none
  | c :: cs =>
    if c = 'Z' ∨ c = 'z' then some (⟨0⟩, cs)
    else if c = '+' ∨ c = '-' then do
      let (hour, cs) ← field? 2 0 23 cs
      let cs ← after? ':' cs
      let (minute, cs) ← field? 2 0 59 cs
      let minutes : Int := 60 * hour + minute
      return (⟨if c = '-' then -minutes else minutes⟩, cs)
    else none

/-- The time of day that may follow a date. -/
def timeAfterDate? : List Char → Option (TimeOfDay × List Char)
  | [] => none
  | c :: cs => if c = 'T' ∨ c = 't' ∨ c = ' ' then time? cs else none

/-- A date, with or without a time and its zone, or a time alone. -/
def stamp? (cs : List Char) : Option (Except Problem Value × List Char) :=
  match date? cs with
  | none => (time? cs).map fun (t, rest) => (.ok (.stamp (.time t)), rest)
  | some (date, cs) =>
    match timeAfterDate? cs with
    | none => some (date.map fun d => .stamp (.date d), cs)
    | some (t, cs) =>
      match zone? cs with
      | none => some (date.map fun d => .stamp (.dateTime d t none), cs)
      | some (z, cs) => some (date.map fun d => .stamp (.dateTime d t (some z)), cs)

end QuadraticVoting.Toml
